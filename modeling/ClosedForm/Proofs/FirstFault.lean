import ClosedForm.Proofs.Prefix
import ClosedForm.Proofs.Suspension

/-!
# Errors stand at the first fault

A text is refused at the first place where it can no longer be right. What stands in front of the
place can be continued to a text that is read, and the next character spoils it: whatever follows
that character, the text is refused at the same place for the same cause. Only white space need not
spoil the text, as it may also end it.

Parsing is suspended behind some tokens if the state it is in decides about every text that goes on
from there (`Suspends`). Whenever a text is refused, parsing was suspended in front of tokens that
its state rejects, and from there the first fault is found (`Suspends.atFirstFault`).
-/

namespace ClosedForm

open Grammar
open Reader (State Fault numberCause)
open Text (byteSize isWhiteSpace)

variable {α : Type} {parse : String → Except SyntaxError α}

/-- The text in front of the error can be continued to one that is parsed, and the character that
follows it there, unless it is white space, leads to this error however the text goes on. -/
def AtFirstFault (parse : String → Except SyntaxError α) (text : String) (error : SyntaxError) :
    Prop :=
  ∃ before after, Text.splitAtByte? text.toList error.position = some (before, after) ∧
    (∃ completion a, parse (String.ofList (before ++ completion)) = .ok a) ∧
    ∀ c rest, after = c :: rest → isWhiteSpace c = false → ∀ more,
      parse (String.ofList (before ++ c :: more)) =
        .error ⟨String.ofList (before ++ c :: more), error.cause, error.position⟩

/-- Behind the tokens `read`, the state decides whether a text can be parsed. -/
structure Suspends (parse : String → Except SyntaxError α) (mayEquate : Bool) (read : List Lexeme)
    (state : State) : Prop where
  isFault : ∀ l ∈ read, l.token.isFault = false
  accepts {text : String} {tokens : List Token} {last : State}
    (hlayout : Layout (read.map Lexeme.token ++ tokens) text.toList)
    (hrun : state.run tokens = some last) (hlast : last.IsComplete) : ∃ a, parse text = .ok a
  rejects {text : String} {rest : List Lexeme} {fault : Fault} (htext : lexemes text = read ++ rest)
    (hrejects : state.Rejects (byteSize text.toList) mayEquate rest fault) :
    parse text = .error (fault.toSyntaxError text)

theorem AtFirstFault.of_append {text : String} {error : SyntaxError} {before after : List Char}
    (htext : text.toList = before ++ after) (hposition : error.position = byteSize before)
    (hviable : ∃ completion a, parse (String.ofList (before ++ completion)) = .ok a)
    (hspoils : ∀ c rest, after = c :: rest → isWhiteSpace c = false → ∀ more,
      parse (String.ofList (before ++ c :: more)) =
        .error ⟨String.ofList (before ++ c :: more), error.cause, error.position⟩) :
    AtFirstFault parse text error := by
  have hsplit : Text.splitAtByte? text.toList error.position = some (before, after) := by
    rw [htext, hposition]
    exact Text.splitAtByte?_byteSize before after
  exact ⟨before, after, hsplit, hviable, hspoils⟩

theorem EndsWord.replaces {other : List Char} (h : EndsWord other) (rest : List Char) :
    Replaces other rest :=
  fun c hc ↦ .inr (h c hc)

theorem replaces_cons (c : Char) (more rest : List Char) : Replaces (c :: more) (c :: rest) := by
  intro d hd
  exact .inl hd

namespace Suspends

variable {mayEquate : Bool} {read : List Lexeme} {state : State} {front : List Char}

/-- Whatever completes the state makes the front of a text a text that is parsed. -/
theorem exists_parse (h : Suspends parse mayEquate read state) {tokens : List Token}
    {other : List Char}
    (hother : lexemesFrom 0 (front ++ other) = read ++ lexemesFrom (byteSize front) other)
    (hlayout : Layout tokens other)
    (hrun : ∃ last, state.run tokens = some last ∧ last.IsComplete) :
    ∃ a, parse (String.ofList (front ++ other)) = .ok a := by
  obtain ⟨last, hrun, hlast⟩ := hrun
  obtain ⟨trailing, htokens, hempty⟩ := hlayout.exists_trailing (byteSize front)
  have hfault : ∀ t ∈ read.map Lexeme.token ++ tokens, t.isFault = false := by
    intro t ht
    rcases List.mem_append.mp ht with hread | htokens
    · obtain ⟨l, hl, rfl⟩ := List.mem_map.mp hread
      exact h.isFault l hl
    · exact (hlayout.isWellFormed t htokens).isFault
  have hwhole : (lexemesFrom 0 (front ++ other)).map Lexeme.token =
      read.map Lexeme.token ++ tokens ++ trailing := by
    rw [hother, List.map_append, htokens, List.append_assoc]
  have hfront : Layout (read.map Lexeme.token ++ tokens) (front ++ other) :=
    (layout_iff 0).mpr ⟨hfault, trailing, hwhole, hempty⟩
  rw [← String.toList_ofList (l := front ++ other)] at hfront
  exact h.accepts hfront hrun hlast

theorem parse_eq_error (h : Suspends parse mayEquate read state) {cs : List Char}
    {rest : List Lexeme} {fault : Fault} (hcs : lexemesFrom 0 cs = read ++ rest)
    (hrejects : state.Rejects (byteSize cs) mayEquate rest fault) :
    parse (String.ofList cs) = .error ⟨String.ofList cs, fault.cause, fault.position⟩ := by
  rw [← String.toList_ofList (l := cs)] at hcs hrejects
  exact h.rejects hcs hrejects

/-- A number that breaks off is at fault behind what was read of it: digits may follow there, and
then what completes the state behind the number. -/
theorem atFirstFault_of_breaksOff (h : Suspends parse mayEquate read state) {text : String}
    {broken : NumberFault} {behind : List Char}
    (htext : text.toList = front ++ (broken.read.toList ++ behind))
    (hbroken : BreaksOff broken behind)
    (hother : ∀ other, Replaces other (broken.read.toList ++ behind) →
      lexemesFrom 0 (front ++ other) = read ++ lexemesFrom (byteSize front) other)
    (hfail : state.step (.malformed broken) = .fail (numberCause broken))
    (hnumber : ∀ text, state.step (.number text) = .next ⟨state.frames, .operator (.number text)⟩) :
    AtFirstFault parse text ⟨text, numberCause broken,
      byteSize front + byteSize broken.read.toList⟩ := by
  have hfront (other : List Char) :
      lexemesFrom 0 (front ++ (broken.read.toList ++ other)) =
        read ++ lexemesFrom (byteSize front) (broken.read.toList ++ other) := by
    obtain ⟨d, cs, hread, -⟩ := hbroken.exists_digit
    rw [hread] at hother ⊢
    exact hother _ (replaces_cons d _ _)
  have hsplit : text.toList = front ++ broken.read.toList ++ behind := by
    rw [htext, List.append_assoc]
  apply AtFirstFault.of_append hsplit (Text.byteSize_append _ _).symm
  · -- What was read becomes a number in place of the broken one, and then the state is completed.
    obtain ⟨digits, hnumeral⟩ := hbroken.exists_isNumeral
    let number := String.ofList (broken.read.toList ++ digits)
    obtain ⟨tokens, cs, hlayout, hend, last, hrun, hlast⟩ :=
      State.exists_completion ⟨state.frames, .operator (.number number)⟩
    have hwell : Token.IsWellFormed (.number number) := by
      simpa [Token.IsWellFormed, number] using hnumeral
    have hnumbered : Layout (.number number :: tokens) (broken.read.toList ++ (digits ++ cs)) := by
      simpa [Token.text, number] using Layout.token hwell (fun _ ↦ hend) hlayout
    have hrun' : state.run (.number number :: tokens) = some last :=
      (State.run_cons (hnumber number) tokens).trans hrun
    obtain ⟨a, hparse⟩ := h.exists_parse (hfront _) hnumbered ⟨last, hrun', hlast⟩
    exact ⟨digits ++ cs, a, by rwa [List.append_assoc]⟩
  · rintro c rest rfl - more
    have hbroken' : BreaksOff broken (c :: more) := hbroken.of_head? rfl
    obtain ⟨d, hlexemes⟩ := lexemesFrom_of_breaksOff hbroken' (byteSize front)
    have hread := hfront (c :: more)
    rw [hlexemes] at hread
    have hfailed := h.parse_eq_error hread (.refuses (.step hfail))
    rwa [Reader.offset_numberCause, ← List.append_assoc] at hfailed

/-- Wherever parsing is suspended, it fails at the first fault. -/
theorem atFirstFault (h : Suspends parse mayEquate read state) {text : String}
    {rest : List Lexeme} {fault : Fault} (htext : lexemes text = read ++ rest)
    (hrejects : state.Rejects (byteSize text.toList) mayEquate rest fault) :
    AtFirstFault parse text (fault.toSyntaxError text) := by
  obtain ⟨front, behind, hcs, hrest, hhead, hother⟩ := exists_front htext h.isFault
  rw [Nat.zero_add] at hrest
  have hother' (other : List Char) (hreplaces : Replaces other behind) :
      lexemesFrom 0 (front ++ other) = read ++ lexemesFrom (byteSize front) other := by
    simpa using hother other hreplaces
  have hviable : ∃ completion a, parse (String.ofList (front ++ completion)) = .ok a := by
    obtain ⟨tokens, cs, hlayout, hend, hrun⟩ := state.exists_completion
    exact ⟨cs, h.exists_parse (hother' cs (hend.replaces behind)) hlayout hrun⟩
  cases behind with
  | nil =>
    -- The text ends too early, and nothing stands behind the fault.
    have hempty : rest = [] := by rw [hrest, lexemesFrom]
    rw [hempty] at hrejects
    apply AtFirstFault.of_append hcs _ hviable
    · intro c rest h
      cases h
    · rw [List.append_nil] at hcs
      rw [← hcs]
      exact hrejects.position_of_nil
  | cons c behind =>
    have hlexemes (cs : List Char) := lexemesFrom_of_scan (hhead c rfl) (rfl : Token.scan c cs = _)
      (byteSize front)
    rw [hrest, hlexemes] at hrejects
    rcases hrejects.of_scan with ⟨hposition, hspoils⟩ | ⟨broken, hscan, rfl, hfail, hnumber⟩
    · apply AtFirstFault.of_append hcs hposition hviable
      rintro d rest hd hspace more
      obtain ⟨rfl, rfl⟩ := List.cons.inj hd
      have hread := hother' (c :: more) (replaces_cons c more behind)
      rw [hlexemes] at hread
      exact h.parse_eq_error hread (hspoils hspace _ more _)
    · have hbroken : BreaksOff broken (Token.scan c behind).2 :=
        Token.breaksOff_of_scan (Prod.ext hscan rfl)
      have htext := Token.text_scan_append c behind
      rw [hscan] at htext
      rw [← htext] at hcs hother'
      exact h.atFirstFault_of_breaksOff hcs hbroken hother' hfail hnumber

end Suspends

/-! ## Suspended parsing -/

namespace Expr

theorem suspends {read : List Lexeme} {state : State}
    (h : State.initial.run (read.map Lexeme.token) = some state) :
    Suspends Expr.parse false read state where
  isFault l hl := Reader.isFault_of_run h _ (List.mem_map_of_mem hl)
  accepts hlayout hrun hlast := by
    obtain ⟨e, hderives⟩ :=
      Reader.derives_of_isComplete ((State.run_append h _).trans hrun) hlast
    exact ⟨e, parse_of_layout hlayout hderives⟩
  rejects htext hrejects := by
    rw [Expr.parse, htext]
    exact mapError_eq_error_iff.mpr
      ⟨_, Reader.readWhole_eq_error_iff.mpr ⟨read, state, _, rfl, h, hrejects⟩, rfl⟩

/-- An expression that cannot be read is refused at its first fault. -/
theorem atFirstFault_of_parse {text : String} {error : SyntaxError}
    (h : Expr.parse text = .error error) : AtFirstFault Expr.parse text error := by
  obtain ⟨fault, hread, rfl⟩ := mapError_eq_error_iff.mp h
  obtain ⟨read, state, rest, htext, hrun, hrejects⟩ := Reader.readWhole_eq_error_iff.mp hread
  exact (suspends hrun).atFirstFault htext hrejects

end Expr

namespace Equation

theorem suspends_left {read : List Lexeme} {state : State}
    (h : State.initial.run (read.map Lexeme.token) = some state) :
    Suspends Equation.parse true read state where
  isFault l hl := Reader.isFault_of_run h _ (List.mem_map_of_mem hl)
  accepts hlayout hrun hlast := by
    obtain ⟨e, hderives⟩ :=
      Reader.derives_of_isComplete ((State.run_append h _).trans hrun) hlast
    exact ⟨.expression e, parse_of_layout hlayout (.expression hderives)⟩
  rejects htext hrejects := by
    rw [Equation.parse, htext]
    exact mapError_eq_error_iff.mpr
      ⟨_, Reader.readEquation_eq_error_iff.mpr (.inl ⟨read, state, _, rfl, h, hrejects⟩), rfl⟩

theorem suspends_right {left read : List Lexeme} {equals : Lexeme} {e : Expr} {state : State}
    (hequals : equals.token = .equals) (hleft : Derives .expression (left.map Lexeme.token) e)
    (h : State.initial.run (read.map Lexeme.token) = some state) :
    Suspends Equation.parse false (left ++ equals :: read) state where
  isFault := by
    have hfaults : ∀ l ∈ left, l.token.isFault = false :=
      fun l hl ↦ hleft.isFault _ (List.mem_map_of_mem hl)
    have hbehind : ∀ l ∈ read, l.token.isFault = false :=
      fun l hl ↦ Reader.isFault_of_run h _ (List.mem_map_of_mem hl)
    have hequals' : equals.token.isFault = false := by
      rw [hequals]
      rfl
    exact List.forall_mem_append.mpr ⟨hfaults, List.forall_mem_cons.mpr ⟨hequals', hbehind⟩⟩
  accepts hlayout hrun hlast := by
    obtain ⟨right, hright⟩ :=
      Reader.derives_of_isComplete ((State.run_append h _).trans hrun) hlast
    rw [List.map_append, List.map_cons, hequals, List.append_assoc] at hlayout
    exact ⟨.equality e right, parse_of_layout hlayout (.equality hleft hright)⟩
  rejects htext hrejects := by
    rw [Equation.parse, htext, List.append_assoc]
    have hright := Reader.readWhole_eq_error_iff.mpr ⟨read, state, _, rfl, h, hrejects⟩
    exact mapError_eq_error_iff.mpr
      ⟨_, Reader.readEquation_eq_error_iff.mpr
        (.inr ⟨left, equals, _, e, rfl, hequals, hleft, hright⟩), rfl⟩

/-- An equation that cannot be read is refused at its first fault. -/
theorem atFirstFault_of_parse {text : String} {error : SyntaxError}
    (h : Equation.parse text = .error error) : AtFirstFault Equation.parse text error := by
  obtain ⟨fault, hread, rfl⟩ := mapError_eq_error_iff.mp h
  rcases Reader.readEquation_eq_error_iff.mp hread with
    ⟨read, state, rest, htext, hrun, hrejects⟩ |
    ⟨left, equals, right, e, htext, hequals, hleft, hright⟩
  · exact (suspends_left hrun).atFirstFault htext hrejects
  · obtain ⟨read, state, rest, rfl, hrun, hrejects⟩ := Reader.readWhole_eq_error_iff.mp hright
    have htext' : lexemes text = left ++ equals :: read ++ rest := by simpa using htext
    exact (suspends_right hequals hleft hrun).atFirstFault htext' hrejects

end Equation

/-- Every error of the parsers stands at the first place where the text can no longer be right. -/
theorem parse_error_atFirstFault :
    (∀ text error, Equation.parse text = .error error → AtFirstFault Equation.parse text error) ∧
      ∀ text error, Expr.parse text = .error error → AtFirstFault Expr.parse text error :=
  ⟨fun _ _ h ↦ Equation.atFirstFault_of_parse h, fun _ _ h ↦ Expr.atFirstFault_of_parse h⟩

/-- An exponent without digits is at fault behind its sign, and a function without its parenthesis
at the next word. -/
theorem parse_error_of_exponent_and_function :
    AtFirstFault Equation.parse "x = 2.5E-y"
        ⟨"x = 2.5E-y", .malformedExponent "2.5E-", 9⟩ ∧
      AtFirstFault Expr.parse "1 + sin x" ⟨"1 + sin x", .missingFunctionParenthesis .sin, 8⟩ := by
  have hexponent : Equation.parse "x = 2.5E-y" =
      .error ⟨"x = 2.5E-y", .malformedExponent "2.5E-", 9⟩ := by
    decide +kernel
  have hfunction : Expr.parse "1 + sin x" =
      .error ⟨"1 + sin x", .missingFunctionParenthesis .sin, 8⟩ := by
    decide +kernel
  exact ⟨parse_error_atFirstFault.1 _ _ hexponent, parse_error_atFirstFault.2 _ _ hfunction⟩

end ClosedForm
