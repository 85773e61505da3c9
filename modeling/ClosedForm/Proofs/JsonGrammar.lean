import Mathlib.Data.Bool.AllAny
import Mathlib.Data.List.Basic
import ClosedForm.Json
import ClosedForm.Proofs.Layout

/-!
# The grammar of JSON

The texts of JSON values are described without a reader: literals, numbers, strings with their
escapes, and arrays and objects with commas between their parts and space around them. The same text
never stands for two values (`IsTextOf.unique`), because behind every part of a text stands a
character that cannot belong to it.
-/

namespace ClosedForm.Json

inductive Value where
  | null
  | boolean (value : Bool)
  /-- A number as it is written. -/
  | number (text : String)
  | string (text : String)
  | array (items : List Value)
  /-- The members in the order of the text, whatever their names are. -/
  | object (members : List (String × Value))

/-! ## Characters and numbers -/

/-- The characters that may stand between the parts of a text. -/
def isSpace (c : Char) : Bool :=
  c == ' ' || c == '\t' || c == '\n' || c == '\r'

/-- The characters of numbers. -/
def isNumberChar (c : Char) : Bool :=
  c.isDigit || c == '-' || c == '+' || c == '.' || c == 'e' || c == 'E'

def IsDigits (cs : List Char) : Prop :=
  cs ≠ [] ∧ ∀ c ∈ cs, c.isDigit = true

def IsFraction (cs : List Char) : Prop :=
  ∃ digits, IsDigits digits ∧ cs = '.' :: digits

def IsExponent (cs : List Char) : Prop :=
  ∃ mark sign digits, (mark = 'e' ∨ mark = 'E') ∧ (sign = [] ∨ sign = ['+'] ∨ sign = ['-']) ∧
    IsDigits digits ∧ cs = mark :: (sign ++ digits)

/-- No zero stands in front of other digits. -/
inductive IsNumber : List Char → Prop where
  | mk {sign whole fraction exponent : List Char} (hsign : sign = [] ∨ sign = ['-'])
      (hwhole : IsDigits whole) (hzero : whole.head? = some '0' → whole = ['0'])
      (hfraction : fraction = [] ∨ IsFraction fraction)
      (hexponent : exponent = [] ∨ IsExponent exponent) :
      IsNumber (sign ++ whole ++ fraction ++ exponent)

/-- What the letters behind a backslash stand for. -/
def escapes : List (Char × Char) :=
  [('"', '"'), ('\\', '\\'), ('/', '/'), ('b', '\x08'), ('f', '\x0c'), ('n', '\n'), ('r', '\r'),
   ('t', '\t')]

def hexDigit? (c : Char) : Option Nat :=
  if c.isDigit then
    some (c.toNat - '0'.toNat)
  else if 'a' ≤ c ∧ c ≤ 'f' then
    some (c.toNat - 'a'.toNat + 10)
  else if 'A' ≤ c ∧ c ≤ 'F' then
    some (c.toNat - 'A'.toNat + 10)
  else
    none

/-- The number that four hexadecimal digits stand for. -/
def codeUnit? : List Char → Option Nat
  | [a, b, c, d] =>
    return 4096 * (← hexDigit? a) + 256 * (← hexDigit? b) + 16 * (← hexDigit? c) + (← hexDigit? d)
  | _ => none

/-- What stands behind a backslash for a character. -/
inductive Escape : List Char → Char → Prop where
  | letter {letter c : Char} (h : (letter, c) ∈ escapes) : Escape [letter] c
  | unit {digits : List Char} {n : Nat} (hdigits : codeUnit? digits = some n)
      (hn : n.isValidChar) : Escape ('u' :: digits) (Char.ofNat n)
  /-- A character beyond the reach of four digits is written as a pair of surrogates. -/
  | pair {high low : List Char} {m n : Nat} (hhigh : codeUnit? high = some m)
      (hm : 0xD800 ≤ m ∧ m < 0xDC00) (hlow : codeUnit? low = some n)
      (hn : 0xDC00 ≤ n ∧ n < 0xE000) :
      Escape ('u' :: (high ++ '\\' :: 'u' :: low))
        (Char.ofNat (0x10000 + (m - 0xD800) * 0x400 + (n - 0xDC00)))

/-- The texts of a character in a string. -/
inductive Spelling : List Char → Char → Prop where
  | plain {c : Char} (hcontrol : 0x20 ≤ c.toNat) (hquote : c ≠ '"') (hbackslash : c ≠ '\\') :
      Spelling [c] c
  | escape {cs : List Char} {c : Char} (h : Escape cs c) : Spelling ('\\' :: cs) c

/-- The texts of a string between its quotes. -/
inductive Spellings : List Char → List Char → Prop where
  | nil : Spellings [] []
  | cons {spelling cs text : List Char} {c : Char} (h : Spelling spelling c)
      (hs : Spellings cs text) : Spellings (spelling ++ cs) (c :: text)

/-! ## Values -/

/-- The parts of a text. -/
inductive Part where
  | value (v : Value)
  /-- An element of an array or, with its name, a member of an object. -/
  | item (name : Option String) (v : Value)
  | items (is : List (Option String × Value))

/-- The texts of a part. -/
inductive Denotes : List Char → Part → Prop where
  | nullWord : Denotes "null".toList (.value .null)
  | trueWord : Denotes "true".toList (.value (.boolean true))
  | falseWord : Denotes "false".toList (.value (.boolean false))
  | number {cs : List Char} (h : IsNumber cs) : Denotes cs (.value (.number (String.ofList cs)))
  | string {cs text : List Char} (h : Spellings cs text) :
      Denotes ('"' :: (cs ++ ['"'])) (.value (.string (String.ofList text)))
  | array {cs : List Char} {vs : List Value}
      (h : Denotes cs (.items (vs.map fun v ↦ (none, v)))) :
      Denotes ('[' :: (cs ++ [']'])) (.value (.array vs))
  | object {cs : List Char} {ms : List (String × Value)}
      (h : Denotes cs (.items (ms.map fun m ↦ (some m.1, m.2)))) :
      Denotes ('\x7b' :: (cs ++ ['\x7d'])) (.value (.object ms))
  | element {before cs after : List Char} {v : Value} (hbefore : ∀ c ∈ before, isSpace c = true)
      (h : Denotes cs (.value v)) (hafter : ∀ c ∈ after, isSpace c = true) :
      Denotes (before ++ (cs ++ after)) (.item none v)
  | member {before name text between cs : List Char} {v : Value}
      (hbefore : ∀ c ∈ before, isSpace c = true) (hname : Spellings name text)
      (hbetween : ∀ c ∈ between, isSpace c = true) (h : Denotes cs (.item none v)) :
      Denotes (before ++ '"' :: (name ++ '"' :: (between ++ ':' :: cs)))
        (.item (some (String.ofList text)) v)
  | noItems {space : List Char} (h : ∀ c ∈ space, isSpace c = true) : Denotes space (.items [])
  | lastItem {cs : List Char} {name : Option String} {v : Value} (h : Denotes cs (.item name v)) :
      Denotes cs (.items [(name, v)])
  | nextItem {cs rest : List Char} {name : Option String} {v : Value} {i : Option String × Value}
      {is : List (Option String × Value)} (h : Denotes cs (.item name v))
      (hrest : Denotes rest (.items (i :: is))) :
      Denotes (cs ++ ',' :: rest) (.items ((name, v) :: i :: is))

/-- A text of a value. Space may stand around it. -/
def IsTextOf (text : String) (v : Value) : Prop :=
  Denotes text.toList (.item none v)

/-! ## Where a part of a text ends -/

/-- A run of characters of a class ends where a character of another class stands. -/
theorem append_inj_of_class {p : Char → Bool} {cs ds r s : List Char}
    (hcs : ∀ c ∈ cs, p c = true) (hds : ∀ c ∈ ds, p c = true)
    (hr : ∀ c ∈ r.head?, p c = false) (hs : ∀ c ∈ s.head?, p c = false) (h : cs ++ r = ds ++ s) :
    cs = ds ∧ r = s := by
  have htake := congrArg (List.takeWhile p) h
  rw [takeWhile_of_endsWith hcs hr, takeWhile_of_endsWith hds hs] at htake
  subst htake
  exact ⟨rfl, List.append_cancel_left h⟩

theorem length_of_codeUnit? {cs : List Char} {n : Nat} (h : codeUnit? cs = some n) :
    cs.length = 4 := by
  unfold codeUnit? at h
  split at h
  · rfl
  · cases h

theorem codeUnit?_inj {cs ds r s : List Char} {m n : Nat} (hm : codeUnit? cs = some m)
    (hn : codeUnit? ds = some n) (h : cs ++ r = ds ++ s) : cs = ds ∧ m = n ∧ r = s := by
  have hlength := (length_of_codeUnit? hm).trans (length_of_codeUnit? hn).symm
  obtain ⟨rfl, hrest⟩ := List.append_inj h hlength
  exact ⟨rfl, Option.some.inj (hm.symm.trans hn), hrest⟩

theorem not_isValidChar_of_surrogate {n : Nat} (h : 0xD800 ≤ n ∧ n < 0xDC00) :
    ¬n.isValidChar := by
  rintro (hlow | ⟨hhigh, -⟩) <;> omega

theorem Escape.unique {cs ds r s : List Char} {c d : Char} (hc : Escape cs c) (hd : Escape ds d)
    (h : cs ++ r = ds ++ s) : cs = ds ∧ c = d := by
  have hu : ∀ c, ('u', c) ∉ escapes := by simp [escapes]
  have hletters : ∀ p ∈ escapes, ∀ q ∈ escapes, p.1 = q.1 → p.2 = q.2 := by decide
  cases hc with
  | letter hletter =>
    cases hd with
    | letter hletter' =>
      obtain ⟨rfl, -⟩ := List.cons.inj h
      exact ⟨rfl, hletters _ hletter _ hletter' rfl⟩
    | unit | pair =>
      obtain ⟨rfl, -⟩ := List.cons.inj h
      exact absurd hletter (hu c)
  | unit hm hvalid =>
    cases hd with
    | letter hletter =>
      obtain ⟨rfl, -⟩ := List.cons.inj h
      exact absurd hletter (hu d)
    | unit hn =>
      obtain ⟨rfl, rfl, -⟩ := codeUnit?_inj hm hn (List.cons.inj h).2
      exact ⟨rfl, rfl⟩
    | pair hn hsurrogate =>
      obtain ⟨-, rfl, -⟩ := codeUnit?_inj hm hn (by simpa using h)
      exact absurd hvalid (not_isValidChar_of_surrogate hsurrogate)
  | pair hm hsurrogate hm' =>
    cases hd with
    | letter hletter =>
      obtain ⟨rfl, -⟩ := List.cons.inj h
      exact absurd hletter (hu d)
    | unit hn hvalid =>
      obtain ⟨-, rfl, -⟩ := codeUnit?_inj hm hn (by simpa using h)
      exact absurd hvalid (not_isValidChar_of_surrogate hsurrogate)
    | pair hn _ hn' =>
      obtain ⟨rfl, rfl, hrest⟩ := codeUnit?_inj hm hn (by simpa using h)
      obtain ⟨rfl, rfl, -⟩ := codeUnit?_inj hm' hn' (by simpa using hrest)
      exact ⟨rfl, rfl⟩

theorem Spelling.unique {cs ds r s : List Char} {c d : Char} (hc : Spelling cs c)
    (hd : Spelling ds d) (h : cs ++ r = ds ++ s) : cs = ds ∧ c = d := by
  cases hc with
  | plain hcontrol hquote hbackslash =>
    cases hd with
    | plain =>
      obtain ⟨rfl, -⟩ := List.cons.inj h
      exact ⟨rfl, rfl⟩
    | escape => exact absurd (List.cons.inj h).1 hbackslash
  | escape hc =>
    cases hd with
    | plain hcontrol hquote hbackslash => exact absurd (List.cons.inj h).1.symm hbackslash
    | escape hd =>
      obtain ⟨rfl, rfl⟩ := hc.unique hd (List.cons.inj h).2
      exact ⟨rfl, rfl⟩

/-- No character of a string is written with a quote in front. -/
theorem Spelling.ne_quote {cs r s : List Char} {c : Char} (h : Spelling cs c) :
    cs ++ r ≠ '"' :: s := by
  cases h with
  | plain hcontrol hquote => simp [hquote]
  | escape => simp

theorem Spellings.unique {cs ds text other r s : List Char} (h : Spellings cs text)
    (hother : Spellings ds other) (heq : cs ++ '"' :: r = ds ++ '"' :: s) :
    cs = ds ∧ text = other ∧ r = s := by
  induction h generalizing ds other with
  | nil =>
    cases hother with
    | nil => exact ⟨rfl, rfl, by simpa using heq⟩
    | cons hd hs =>
      rw [List.append_assoc] at heq
      exact absurd heq.symm hd.ne_quote
  | cons hc hs ih =>
    cases hother with
    | nil =>
      rw [List.append_assoc] at heq
      exact absurd heq hc.ne_quote
    | cons hd hs' =>
      rw [List.append_assoc, List.append_assoc] at heq
      obtain ⟨rfl, rfl⟩ := hc.unique hd heq
      obtain ⟨rfl, rfl, rfl⟩ := ih hs' (List.append_cancel_left heq)
      exact ⟨rfl, rfl, rfl⟩

/-! ## How a value begins -/

theorem IsDigits.forall_isNumberChar {cs : List Char} (h : IsDigits cs) :
    ∀ c ∈ cs, isNumberChar c = true := by
  intro c hc
  simp [isNumberChar, h.2 c hc]

theorem IsNumber.forall_isNumberChar {cs : List Char} (h : IsNumber cs) :
    ∀ c ∈ cs, isNumberChar c = true := by
  obtain ⟨hsign, hwhole, -, hfraction, hexponent⟩ := h
  simp only [List.forall_mem_append]
  refine ⟨⟨⟨?_, hwhole.forall_isNumberChar⟩, ?_⟩, ?_⟩
  · rcases hsign with rfl | rfl <;> exact List.all_eq_true.mp rfl
  · rcases hfraction with rfl | ⟨digits, hdigits, rfl⟩
    · exact List.forall_mem_nil _
    · exact List.forall_mem_cons.mpr ⟨by decide, hdigits.forall_isNumberChar⟩
  · rcases hexponent with rfl | ⟨mark, sign, digits, hmark, hsign, hdigits, rfl⟩
    · exact List.forall_mem_nil _
    · rw [List.forall_mem_cons, List.forall_mem_append]
      refine ⟨?_, ?_, hdigits.forall_isNumberChar⟩
      · rcases hmark with rfl | rfl <;> decide
      · rcases hsign with rfl | rfl | rfl <;> exact List.all_eq_true.mp rfl

theorem IsNumber.exists_cons {cs : List Char} (h : IsNumber cs) :
    ∃ c more, cs = c :: more ∧ isNumberChar c = true := by
  have hne : cs ≠ [] := by
    obtain ⟨-, hwhole, -, -, -⟩ := h
    simp [hwhole.1]
  obtain ⟨c, more, rfl⟩ := List.exists_cons_of_ne_nil hne
  exact ⟨c, more, rfl, h.forall_isNumberChar c List.mem_cons_self⟩

/-- The kinds of values that the first character tells apart. -/
inductive Kind where
  | null
  | true
  | false
  | number
  | string
  | array
  | object
  deriving DecidableEq

def Value.kind : Value → Kind
  | null => .null
  | boolean value => if value then .true else .false
  | number _ => .number
  | string _ => .string
  | array _ => .array
  | object _ => .object

/-- The kind of the values whose texts begin with a character. -/
def kindOf? (c : Char) : Option Kind :=
  if isNumberChar c then some .number
  else if c = 'n' then some .null
  else if c = 't' then some .true
  else if c = 'f' then some .false
  else if c = '"' then some .string
  else if c = '[' then some .array
  else if c = '\x7b' then some .object
  else none

theorem Denotes.exists_cons {cs : List Char} {v : Value} (h : Denotes cs (.value v)) :
    ∃ c more, cs = c :: more ∧ kindOf? c = some v.kind := by
  cases h with
  | number h =>
    obtain ⟨c, more, rfl, hc⟩ := h.exists_cons
    exact ⟨c, more, rfl, if_pos hc⟩
  | nullWord | trueWord | falseWord | string | array | object => exact ⟨_, _, rfl, rfl⟩

theorem Denotes.kind_eq {cs ds r s : List Char} {v w : Value} (h : Denotes cs (.value v))
    (hother : Denotes ds (.value w)) (heq : cs ++ r = ds ++ s) : v.kind = w.kind := by
  obtain ⟨c, more, rfl, hc⟩ := h.exists_cons
  obtain ⟨d, others, rfl, hd⟩ := hother.exists_cons
  obtain ⟨rfl, -⟩ := List.cons.inj heq
  exact Option.some.inj (hc.symm.trans hd)

/-- Space is no part of a value. -/
theorem kindOf?_of_isSpace {c : Char} (h : isSpace c = true) :
    kindOf? c = none ∧ isNumberChar c = false := by
  have hspaces : ∀ c ∈ [' ', '\t', '\n', '\r'], kindOf? c = none ∧ isNumberChar c = false :=
    List.all_iff_forall_prop.mp (by decide)
  apply hspaces
  simpa [isSpace, or_assoc] using h

theorem isSpace_of_kindOf?_eq_some {c : Char} {kind : Kind} (h : kindOf? c = some kind) :
    isSpace c = false := by
  by_contra hspace
  rw [(kindOf?_of_isSpace (Bool.not_eq_false _ ▸ hspace)).1] at h
  cases h

/-! ## One text, one value -/

/-- A number cannot go on. -/
def EndsValue (rest : List Char) : Prop :=
  ∀ c ∈ rest.head?, isNumberChar c = false

/-- An item cannot go on. -/
def EndsItem (rest : List Char) : Prop :=
  ∀ c ∈ rest.head?, c ∈ [',', ']', '\x7d']

/-- No further item can come. -/
def EndsItems (rest : List Char) : Prop :=
  ∃ c ∈ [']', '\x7d'], rest.head? = some c

theorem endsItems_cons {c : Char} (hc : c ∈ [']', '\x7d']) (rest : List Char) :
    EndsItems (c :: rest) :=
  ⟨c, hc, rfl⟩

theorem endsItem_comma (rest : List Char) : EndsItem (',' :: rest) := by
  simp [EndsItem]

theorem EndsItems.endsItem {rest : List Char} (h : EndsItems rest) : EndsItem rest := by
  obtain ⟨c, hc, hrest⟩ := h
  intro d hd
  rw [hrest] at hd
  obtain rfl := Option.some.inj hd
  exact List.mem_cons_of_mem _ hc

theorem EndsItems.ne_comma {rest more : List Char} (h : EndsItems rest) : rest ≠ ',' :: more := by
  rintro rfl
  obtain ⟨c, hc, hrest⟩ := h
  obtain rfl := Option.some.inj hrest
  simp at hc

theorem EndsItem.isSpace {rest : List Char} (h : EndsItem rest) :
    ∀ c ∈ rest.head?, isSpace c = false := by
  have hends : ∀ c ∈ [',', ']', '\x7d'], Json.isSpace c = false :=
    List.all_iff_forall_prop.mp (by decide)
  exact fun c hc ↦ hends c (h c hc)

theorem EndsItem.endsValue {space rest : List Char} (h : EndsItem rest)
    (hspace : ∀ c ∈ space, Json.isSpace c = true) : EndsValue (space ++ rest) := by
  have hends : ∀ c ∈ [',', ']', '\x7d'], isNumberChar c = false :=
    List.all_iff_forall_prop.mp (by decide)
  cases space with
  | nil => exact fun c hc ↦ hends c (h c hc)
  | cons c space =>
    rintro d hd
    obtain rfl := Option.some.inj hd
    exact (kindOf?_of_isSpace (hspace c List.mem_cons_self)).2

/-- Something other than space stands in an item. -/
theorem Denotes.ne_space {cs space r s : List Char} {name : Option String} {v : Value}
    (h : Denotes cs (.item name v)) (hspace : ∀ c ∈ space, isSpace c = true) (hs : EndsItems s) :
    cs ++ r ≠ space ++ s := by
  have hends : ∀ c ∈ [']', '\x7d'], kindOf? c = none ∧ c ≠ '"' :=
    List.all_iff_forall_prop.mp (by decide)
  obtain ⟨c, hc, hfirst⟩ := hs
  obtain ⟨hkind, hquote⟩ := hends c hc
  have hbehind : EndsItems s := ⟨c, hc, hfirst⟩
  -- Behind the space an item goes on with a value or a quote, never with a closing bracket.
  intro heq
  cases h with
  | element hbefore h hafter =>
    obtain ⟨d, more, rfl, hd⟩ := h.exists_cons
    have hdspace := isSpace_of_kindOf?_eq_some hd
    rw [List.append_assoc] at heq
    obtain ⟨-, rfl⟩ := append_inj_of_class hbefore hspace (by simpa using hdspace)
      hbehind.endsItem.isSpace heq
    obtain rfl := Option.some.inj hfirst
    rw [hkind] at hd
    cases hd
  | member hbefore hname hbetween h =>
    rw [List.append_assoc] at heq
    obtain ⟨-, rfl⟩ := append_inj_of_class hbefore hspace (by simp [isSpace])
      hbehind.endsItem.isSpace heq
    exact hquote (Option.some.inj hfirst).symm

namespace Part

/-- With something behind it that is none of it, the text of the part is not the beginning of a
text that begins with another part of the same sort. -/
def IsDetermined (cs : List Char) : Part → Prop
  | value v => ∀ {ds r s w}, Denotes ds (.value w) → EndsValue r → EndsValue s →
      cs ++ r = ds ++ s → cs = ds ∧ v = w
  | item name v => ∀ {ds r s other w}, Denotes ds (.item other w) → name.isSome = other.isSome →
      EndsItem r → EndsItem s → cs ++ r = ds ++ s → cs = ds ∧ name = other ∧ v = w
  | items is => ∀ {ds r s js}, Denotes ds (.items js) →
      (∀ i ∈ is, ∀ j ∈ js, i.1.isSome = j.1.isSome) → EndsItems r → EndsItems s →
      cs ++ r = ds ++ s → cs = ds ∧ is = js

variable {cs rest : List Char} {name : Option String} {v : Value}

theorem isDetermined_number (h : IsNumber cs) :
    (value (.number (String.ofList cs))).IsDetermined cs := by
  intro ds r s w hother hr hs heq
  have hkind := (Denotes.number h).kind_eq hother heq
  cases hother with
  | number h' =>
    obtain ⟨rfl, -⟩ := append_inj_of_class h.forall_isNumberChar h'.forall_isNumberChar hr hs heq
    exact ⟨rfl, rfl⟩
  | nullWord | trueWord | falseWord | string | array | object => cases hkind

theorem isDetermined_string {text : List Char} (h : Spellings cs text) :
    (value (.string (String.ofList text))).IsDetermined ('"' :: (cs ++ ['"'])) := by
  intro ds r s w hother hr hs heq
  have hkind := (Denotes.string h).kind_eq hother heq
  cases hother with
  | string h' =>
    obtain ⟨rfl, rfl, -⟩ := h.unique h' (by simpa using heq)
    exact ⟨rfl, rfl⟩
  | nullWord | trueWord | falseWord | number | array | object => cases hkind

theorem isDetermined_array {vs : List Value}
    (h : Denotes cs (.items (vs.map fun v ↦ (none, v))))
    (ih : (items (vs.map fun v ↦ (none, v))).IsDetermined cs) :
    (value (.array vs)).IsDetermined ('[' :: (cs ++ [']'])) := by
  intro ds r s w hother hr hs heq
  have hkind := (Denotes.array h).kind_eq hother heq
  have hinjective : Function.Injective fun v : Value ↦ ((none, v) : Option String × Value) :=
    fun _ _ h ↦ (Prod.mk.inj h).2
  cases hother with
  | array h' =>
    obtain ⟨rfl, hvs⟩ := ih h' (by simp) (endsItems_cons (c := ']') (by simp) r)
      (endsItems_cons (c := ']') (by simp) s) (by simpa using heq)
    exact ⟨rfl, congrArg Value.array (List.map_injective_iff.mpr hinjective hvs)⟩
  | nullWord | trueWord | falseWord | number | string | object => cases hkind

theorem isDetermined_object {ms : List (String × Value)}
    (h : Denotes cs (.items (ms.map fun m ↦ (some m.1, m.2))))
    (ih : (items (ms.map fun m ↦ (some m.1, m.2))).IsDetermined cs) :
    (value (.object ms)).IsDetermined ('\x7b' :: (cs ++ ['\x7d'])) := by
  intro ds r s w hother hr hs heq
  have hkind := (Denotes.object h).kind_eq hother heq
  have hinjective : Function.Injective fun m : String × Value ↦ (some m.1, m.2) := by
    rintro ⟨name, v⟩ ⟨other, w⟩ h
    simpa using h
  cases hother with
  | @object _ others h' =>
    have hnames : ∀ i ∈ ms.map fun m ↦ (some m.1, m.2),
        ∀ j ∈ others.map fun m ↦ (some m.1, m.2), i.1.isSome = j.1.isSome := by
      simp only [List.mem_map]
      rintro _ ⟨m, -, rfl⟩ _ ⟨n, -, rfl⟩
      rfl
    obtain ⟨rfl, hms⟩ := ih h' hnames (endsItems_cons (c := '\x7d') (by simp) r)
      (endsItems_cons (c := '\x7d') (by simp) s) (by simpa using heq)
    exact ⟨rfl, congrArg Value.object (List.map_injective_iff.mpr hinjective hms)⟩
  | nullWord | trueWord | falseWord | number | string | array => cases hkind

theorem isDetermined_element {before after : List Char}
    (hbefore : ∀ c ∈ before, isSpace c = true) (h : Denotes cs (.value v))
    (hafter : ∀ c ∈ after, isSpace c = true) (ih : (value v).IsDetermined cs) :
    (item none v).IsDetermined (before ++ (cs ++ after)) := by
  intro ds r s other w hother hname hr hs heq
  -- No value begins with space, so the space in front ends at the same place in both texts.
  have hfirst {cs rest : List Char} {v : Value} (h : Denotes cs (.value v)) :
      ∀ c ∈ (cs ++ rest).head?, isSpace c = false := by
    obtain ⟨c, more, rfl, hc⟩ := h.exists_cons
    simpa using isSpace_of_kindOf?_eq_some hc
  cases hother with
  | element hbefore' h' hafter' =>
    simp only [List.append_assoc] at heq
    obtain ⟨rfl, hvalue⟩ := append_inj_of_class hbefore hbefore' (hfirst h) (hfirst h') heq
    obtain ⟨rfl, rfl⟩ := ih h' (hr.endsValue hafter) (hs.endsValue hafter') hvalue
    have hbehind := List.append_cancel_left hvalue
    obtain ⟨rfl, -⟩ := append_inj_of_class hafter hafter' hr.isSpace hs.isSpace hbehind
    exact ⟨rfl, rfl, rfl⟩
  | member => cases hname

theorem isDetermined_member {before text between written : List Char}
    (hbefore : ∀ c ∈ before, isSpace c = true) (hname : Spellings written text)
    (hbetween : ∀ c ∈ between, isSpace c = true) (ih : (item none v).IsDetermined cs) :
    (item (some (String.ofList text)) v).IsDetermined
      (before ++ '"' :: (written ++ '"' :: (between ++ ':' :: cs))) := by
  intro ds r s other w hother hsome hr hs heq
  have hfirst {c : Char} {rest : List Char} (hc : isSpace c = false) :
      ∀ x ∈ (c :: rest).head?, isSpace x = false := by
    simpa using hc
  cases hother with
  | element => cases hsome
  | member hbefore' hname' hbetween' h' =>
    simp only [List.append_assoc, List.cons_append] at heq
    obtain ⟨rfl, hquote⟩ :=
      append_inj_of_class hbefore hbefore' (hfirst (by decide)) (hfirst (by decide)) heq
    obtain ⟨rfl, rfl, hcolon⟩ := hname.unique hname' (List.cons.inj hquote).2
    obtain ⟨rfl, hvalue⟩ :=
      append_inj_of_class hbetween hbetween' (hfirst (by decide)) (hfirst (by decide)) hcolon
    obtain ⟨rfl, -, rfl⟩ := ih h' rfl hr hs (List.cons.inj hvalue).2
    exact ⟨rfl, rfl, rfl⟩

theorem isDetermined_noItems (h : ∀ c ∈ cs, isSpace c = true) : (items []).IsDetermined cs := by
  intro ds r s js hother hnames hr hs heq
  cases hother with
  | noItems h' =>
    obtain ⟨rfl, -⟩ := append_inj_of_class h h' hr.endsItem.isSpace hs.endsItem.isSpace heq
    exact ⟨rfl, rfl⟩
  | lastItem h' => exact absurd heq.symm (h'.ne_space h hr)
  | nextItem h' hrest =>
    rw [List.append_assoc] at heq
    exact absurd heq.symm (h'.ne_space h hr)

theorem isDetermined_lastItem (h : Denotes cs (.item name v))
    (ih : (item name v).IsDetermined cs) : (items [(name, v)]).IsDetermined cs := by
  intro ds r s js hother hnames hr hs heq
  cases hother with
  | noItems h' => exact absurd heq (h.ne_space h' hs)
  | lastItem h' =>
    have hname := hnames _ List.mem_cons_self _ List.mem_cons_self
    obtain ⟨rfl, rfl, rfl⟩ := ih h' hname hr.endsItem hs.endsItem heq
    exact ⟨rfl, rfl⟩
  | nextItem h' hrest =>
    have hname := hnames _ List.mem_cons_self _ List.mem_cons_self
    rw [List.append_assoc, List.cons_append] at heq
    obtain ⟨rfl, -⟩ := ih h' hname hr.endsItem (endsItem_comma _) heq
    exact absurd (List.append_cancel_left heq) hr.ne_comma

theorem isDetermined_nextItem {i : Option String × Value} {is : List (Option String × Value)}
    (h : Denotes cs (.item name v)) (ih : (item name v).IsDetermined cs)
    (ihrest : (items (i :: is)).IsDetermined rest) :
    (items ((name, v) :: i :: is)).IsDetermined (cs ++ ',' :: rest) := by
  intro ds r s js hother hnames hr hs heq
  rw [List.append_assoc, List.cons_append] at heq
  cases hother with
  | noItems h' => exact absurd heq (h.ne_space h' hs)
  | lastItem h' =>
    have hname := hnames _ List.mem_cons_self _ List.mem_cons_self
    obtain ⟨rfl, -⟩ := ih h' hname (endsItem_comma _) hs.endsItem heq
    exact absurd (List.append_cancel_left heq).symm hs.ne_comma
  | nextItem h' hrest' =>
    have hname := hnames _ List.mem_cons_self _ List.mem_cons_self
    have hmorenames := fun i hi j hj ↦
      hnames i (List.mem_cons_of_mem _ hi) j (List.mem_cons_of_mem _ hj)
    rw [List.append_assoc, List.cons_append] at heq
    obtain ⟨rfl, rfl, rfl⟩ := ih h' hname (endsItem_comma _) (endsItem_comma _) heq
    have hmore := (List.cons.inj (List.append_cancel_left heq)).2
    obtain ⟨rfl, his⟩ := ihrest hrest' hmorenames hr hs hmore
    exact ⟨rfl, congrArg _ his⟩

end Part

theorem Denotes.isDetermined {cs : List Char} {part : Part} (h : Denotes cs part) :
    part.IsDetermined cs := by
  induction h with
  | nullWord | trueWord | falseWord =>
    intro ds r s w hother hr hs heq
    have hkind := Denotes.kind_eq (by constructor) hother heq
    cases hother <;> first | exact ⟨rfl, rfl⟩ | cases hkind
  | number h => exact Part.isDetermined_number h
  | string h => exact Part.isDetermined_string h
  | array h ih => exact Part.isDetermined_array h ih
  | object h ih => exact Part.isDetermined_object h ih
  | element hbefore h hafter ih => exact Part.isDetermined_element hbefore h hafter ih
  | member hbefore hname hbetween h ih =>
    exact Part.isDetermined_member hbefore hname hbetween ih
  | noItems h => exact Part.isDetermined_noItems h
  | lastItem h ih => exact Part.isDetermined_lastItem h ih
  | nextItem h hrest ih ihrest => exact Part.isDetermined_nextItem h ih ihrest

/-- A text stands for one value only. -/
theorem IsTextOf.unique {text : String} {v w : Value} (h : IsTextOf text v)
    (hother : IsTextOf text w) : v = w := by
  have hends : EndsItem [] := by simp [EndsItem]
  exact (h.isDetermined hother rfl hends hends rfl).2.2

end ClosedForm.Json
