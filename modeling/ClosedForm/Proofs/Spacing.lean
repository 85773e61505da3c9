import ClosedForm.Proofs.Relocation
import Mathlib.Data.List.Chain

/-!
# Blanks between tokens

Tokens can be written out with any blanks in front, between and behind them; only words need some
blank to be told apart. The scanner finds the same tokens whatever the blanks are, each where it is
written (`lexemes_text`), so what is read from the text depends on the tokens alone, and so does the
token at which a fault shows (`parse_of_writing`).
-/

namespace ClosedForm

open Reader (Fault)
open Text (byteSize isBlank)

/-- A list of tokens written out: the blanks in front, and each token with the blanks behind it. -/
structure Writing where
  indent : List Char
  items : List (Token × List Char)

namespace Writing

def tokens (w : Writing) : List Token :=
  w.items.map Prod.fst

def spell (items : List (Token × List Char)) : List Char :=
  items.flatMap fun item ↦ item.1.text.toList ++ item.2

def text (w : Writing) : String :=
  String.ofList (w.indent ++ spell w.items)

/-- The first byte of the token with the given index; behind the last token, the end of the text. -/
def place (w : Writing) (index : Nat) : Nat :=
  byteSize (w.indent ++ spell (w.items.take index))

/-- Blanks are all there is besides the tokens, and they part adjacent words. -/
structure IsSpaced (w : Writing) : Prop where
  indent : ∀ c ∈ w.indent, isBlank c = true
  blanks : ∀ item ∈ w.items, ∀ c ∈ item.2, isBlank c = true
  apart : w.items.IsChain fun item next ↦
    item.1.isWord = true → next.1.isWord = true → item.2 ≠ []

end Writing

/-! ## Tokens by their index -/

/-- The first character of the text of a token, which is not empty. -/
def Token.first (t : Token) : Char :=
  t.text.toList.headD ' '

/-- Tokens that stand at their index in the list. -/
def Token.enumerate (tokens : List Token) : List Lexeme :=
  tokens.zipIdx.map fun item ↦ ⟨item.1, item.1.first, item.2⟩

theorem lexemesFrom_blanks_append {blanks : List Char} (hblanks : ∀ c ∈ blanks, isBlank c = true)
    (start : Nat) (cs : List Char) :
    lexemesFrom start (blanks ++ cs) = lexemesFrom (start + byteSize blanks) cs := by
  induction blanks generalizing start with
  | nil => rfl
  | cons c blanks ih =>
    rw [List.forall_mem_cons] at hblanks
    rw [List.cons_append, lexemesFrom_of_isBlank hblanks.1, ih hblanks.2, Text.byteSize_cons,
      Nat.add_assoc]

/-- A blank ends the word in front of it. -/
theorem endsWord_of_isBlank {blanks : List Char} (hblanks : ∀ c ∈ blanks, isBlank c = true)
    (hne : blanks ≠ []) (cs : List Char) : EndsWord (blanks ++ cs) := by
  obtain ⟨c, more, rfl⟩ := List.exists_cons_of_ne_nil hne
  rw [List.forall_mem_cons] at hblanks
  have hblank : c = ' ' ∨ c = '\t' := by simpa [isBlank] using hblanks.1
  apply endsWord_cons.mpr
  rcases hblank with rfl | rfl <;> decide

namespace Writing

theorem byteSize_spell_append_singleton (indent : List Char) (items : List (Token × List Char))
    (item : Token × List Char) :
    byteSize (indent ++ spell (items ++ [item])) =
      byteSize (indent ++ spell items) + byteSize item.1.text.toList + byteSize item.2 := by
  simp [spell, Nat.add_assoc]

/-- Behind a word stands a blank, a symbol or nothing. -/
theorem endsWord_spell {t : Token} {gap : List Char} {rest : List (Token × List Char)}
    (hrest : ∀ item ∈ rest, item.1.IsWellFormed) (hgap : ∀ c ∈ gap, isBlank c = true)
    (hapart : ∀ next ∈ rest.head?, t.isWord = true → next.1.isWord = true → gap ≠ [])
    (hword : t.isWord = true) : EndsWord (gap ++ spell rest) := by
  by_cases hgap' : gap = []
  · subst hgap'
    cases rest with
    | nil => exact endsWord_nil
    | cons next rest =>
      have hsymbol : next.1.isWord = false := by
        by_contra h
        exact hapart next rfl hword (Bool.not_eq_false _ ▸ h) rfl
      rw [List.nil_append, spell, List.flatMap_cons, List.append_assoc]
      exact Token.endsWord_of_isWord_eq_false (hrest next List.mem_cons_self) hsymbol _
  · exact endsWord_of_isBlank hgap hgap' _

theorem lexemesFrom_spell {w : Writing} {rest : List (Token × List Char)}
    (done : List (Token × List Char)) (hw : w.items = done ++ rest)
    (htokens : ∀ item ∈ rest, item.1.IsWellFormed)
    (hblanks : ∀ item ∈ rest, ∀ c ∈ item.2, isBlank c = true)
    (hapart : rest.IsChain fun item next ↦
      item.1.isWord = true → next.1.isWord = true → item.2 ≠ []) :
    lexemesFrom (w.place done.length) (spell rest) =
      ((rest.map Prod.fst).zipIdx done.length).map fun item ↦
        ⟨item.1, item.1.first, w.place item.2⟩ := by
  induction rest generalizing done with
  | nil => simp [spell, lexemesFrom]
  | cons item rest ih =>
    obtain ⟨t, gap⟩ := item
    rw [List.forall_mem_cons] at htokens hblanks
    rw [List.isChain_cons] at hapart
    obtain ⟨c, cs, htext, hblank⟩ := htokens.1.exists_text
    have hend := endsWord_spell htokens.2 hblanks.1 hapart.1
    have hscan := Token.scan_of_isWellFormed htokens.1 htext hend
    have hw' : w.items = done ++ [(t, gap)] ++ rest := by simpa using hw
    have hplace : w.place (done.length + 1) =
        w.place done.length + byteSize t.text.toList + byteSize gap := by
      have htake : w.items.take (done.length + 1) = done ++ [(t, gap)] := by
        rw [hw']
        exact List.take_left' (by simp)
      rw [place, place, htake, byteSize_spell_append_singleton, hw, List.take_left]
    have hih := ih (done ++ [(t, gap)]) hw' htokens.2 hblanks.2 hapart.2
    have hfirst : t.first = c := by simp [Token.first, htext]
    have hspell : spell ((t, gap) :: rest) = c :: (cs ++ (gap ++ spell rest)) := by
      simp [spell, htext]
    rw [hspell, lexemesFrom_of_scan hblank hscan, lexemesFrom_blanks_append hblanks.1, ← hplace,
      List.map_cons, List.zipIdx_cons, List.map_cons, hfirst]
    simpa using hih

/-- The scanner finds the tokens that are written, each where it is written. -/
theorem lexemes_text {w : Writing} (hw : w.IsSpaced) (htokens : ∀ t ∈ w.tokens, t.IsWellFormed) :
    lexemes w.text = (Token.enumerate w.tokens).map (.relocate w.place) := by
  have hitems : ∀ item ∈ w.items, item.1.IsWellFormed :=
    fun item hitem ↦ htokens _ (List.mem_map_of_mem hitem)
  have hspell := lexemesFrom_spell (w := w) [] rfl hitems hw.blanks hw.apart
  have hstart : w.place 0 = 0 + byteSize w.indent := by simp [place, spell]
  rw [List.length_nil, hstart] at hspell
  rw [lexemes, text, String.toList_ofList, lexemesFrom_blanks_append hw.indent, hspell,
    Token.enumerate, List.map_map]
  rfl

theorem place_length (w : Writing) : w.place w.tokens.length = byteSize w.text.toList := by
  rw [place, text, String.toList_ofList, tokens, List.length_map, List.take_length]

end Writing

/-! ## What is read from a writing -/

theorem Token.isFault_enumerate {tokens : List Token} (h : ∀ t ∈ tokens, t.IsWellFormed) :
    ∀ l ∈ Token.enumerate tokens, l.token.isFault = false := by
  intro l hl
  obtain ⟨⟨t, index⟩, hmem, rfl⟩ := List.mem_map.mp hl
  exact (h t (List.fst_mem_of_mem_zipIdx hmem)).isFault

theorem Token.start_lt_of_mem_enumerate {tokens : List Token} {l : Lexeme}
    (h : l ∈ Token.enumerate tokens) : l.start < tokens.length := by
  obtain ⟨⟨t, index⟩, hmem, rfl⟩ := List.mem_map.mp h
  simpa using List.snd_lt_of_mem_zipIdx hmem

variable {α : Type}

/-- All writings of the tokens give one result. An error has the same cause in each and stands at
the first byte of the same token, or at the end of each text. -/
def IgnoresBlanks (parse : String → Except SyntaxError α) (tokens : List Token) : Prop :=
  ∃ result : Except Fault α,
    (∀ fault, result = .error fault → fault.position ≤ tokens.length) ∧
    ∀ w : Writing, w.IsSpaced → w.tokens = tokens →
      parse w.text = result.mapError fun fault ↦ ⟨w.text, fault.cause, w.place fault.position⟩

/-- A parser ignores blanks if its reading goes along with the tokens to other places and finds
faults at tokens or at the end. -/
theorem ignoresBlanks_of_relocate {parse : String → Except SyntaxError α}
    {read : Nat → List Lexeme → Except Fault α} {tokens : List Token}
    (htokens : ∀ t ∈ tokens, t.IsWellFormed)
    (hparse : ∀ text, parse text =
      (read (byteSize text.toList) (lexemes text)).mapError (·.toSyntaxError text))
    (hrelocate : ∀ {place lexemes}, Reader.KeepsDistances place lexemes → ∀ limit,
      read (place limit) (lexemes.map (.relocate place)) =
        (read limit lexemes).mapError (.relocate place))
    (hposition : ∀ {lexemes limit fault}, (∀ l ∈ lexemes, l.token.isFault = false) →
      read limit lexemes = .error fault →
        fault.position = limit ∨ ∃ l ∈ lexemes, fault.position = l.start) :
    IgnoresBlanks parse tokens := by
  have hfaults := Token.isFault_enumerate htokens
  refine ⟨read tokens.length (Token.enumerate tokens), ?_, ?_⟩
  · intro fault hfault
    rcases hposition hfaults hfault with hend | ⟨l, hl, hstart⟩
    · exact hend.le
    · rw [hstart]
      exact (Token.start_lt_of_mem_enumerate hl).le
  · rintro w hw rfl
    have hkeeps : Reader.KeepsDistances w.place (Token.enumerate w.tokens) :=
      Reader.keepsDistances_of_isFault hfaults
    have hread := hrelocate hkeeps w.tokens.length
    rw [hparse, Writing.lexemes_text hw htokens, ← w.place_length, hread]
    cases read w.tokens.length (Token.enumerate w.tokens) <;> rfl

/-- Blanks between tokens never matter. -/
theorem parse_ignores_blanks {tokens : List Token} (htokens : ∀ t ∈ tokens, t.IsWellFormed) :
    IgnoresBlanks Equation.parse tokens ∧ IgnoresBlanks Expr.parse tokens :=
  ⟨ignoresBlanks_of_relocate htokens (fun _ ↦ rfl) Reader.readEquation_relocate
      Reader.position_of_readEquation,
    ignoresBlanks_of_relocate htokens (fun _ ↦ rfl) Reader.readWhole_relocate
      Reader.position_of_readWhole⟩

/-- However `x = sin(2e-1 y` is spaced, the closing parenthesis is missed at the `y`. -/
theorem parse_ignores_blanks_of_call :
    let tokens : List Token :=
      [.name "x", .equals, .function .sin, .opening, .number "2e-1", .name "y"]
    let tight : Writing := ⟨[], [(.name "x", []), (.equals, []), (.function .sin, []),
      (.opening, []), (.number "2e-1", [' ']), (.name "y", [])]⟩
    let wide : Writing := ⟨['\t'], [(.name "x", [' ']), (.equals, ['\t']), (.function .sin, [' ']),
      (.opening, [' ', ' ']), (.number "2e-1", ['\t', ' ']), (.name "y", [' '])]⟩
    (∀ t ∈ tokens, t.IsWellFormed) ∧ tight.IsSpaced ∧ wide.IsSpaced ∧
      tight.tokens = tokens ∧ wide.tokens = tokens ∧
      Equation.parse "x=sin(2e-1 y" =
        .error ⟨tight.text, .missingRightParenthesis, tight.place 5⟩ ∧
      Equation.parse "\tx =\tsin (  2e-1\t y " =
        .error ⟨wide.text, .missingRightParenthesis, wide.place 5⟩ ∧
      IgnoresBlanks Equation.parse tokens ∧ IgnoresBlanks Expr.parse tokens := by
  intro tokens tight wide
  have hname (name : String) (h : Expr.parse name = .ok (.var name)) :
      Token.IsWellFormed (.name name) := Expr.isWritable_of_parse h
  have hnumber : Expr.parse "2e-1" = .ok (.number "2e-1") := by decide +kernel
  have htokens : ∀ t ∈ tokens, t.IsWellFormed := by
    have hx := hname "x" (by decide +kernel)
    have hy := hname "y" (by decide +kernel)
    have hnumeral : Token.IsWellFormed (.number "2e-1") := Expr.isWritable_of_parse hnumber
    have hsin : Token.IsWellFormed (.function .sin) := List.mem_cons_self
    simp only [tokens, List.forall_mem_cons]
    exact ⟨hx, trivial, hsin, trivial, hnumeral, hy, List.forall_mem_nil _⟩
  have htight : tight.IsSpaced :=
    ⟨by simp [tight], by simp [tight, isBlank], by simp [tight, Token.isWord]⟩
  have hwide : wide.IsSpaced :=
    ⟨by simp [wide, isBlank], by simp [wide, isBlank], by simp [wide, Token.isWord]⟩
  obtain ⟨hequation, hexpr⟩ := parse_ignores_blanks htokens
  exact ⟨htokens, htight, hwide, rfl, rfl, by decide +kernel, by decide +kernel, hequation, hexpr⟩

end ClosedForm
