import ClosedForm.Proofs.Prefix
import ClosedForm.Proofs.Relocation
import ClosedForm.Proofs.Symbols
import Mathlib.Data.List.DropRight

/-!
# The two sides of an equation

Reading does not depend on where in a text it begins: further on, the same is read at places that
are further on. So an equation is read as an expression in front of its equals sign and another one
behind it (`parse_append_equals`), each as it would be read alone. Only white space behind the left
side is another matter: alone it may be any, in front of the equals sign blanks only.
-/

namespace ClosedForm

open Grammar
open Reader
open Text (byteSize isBlank isWhiteSpace)

/-! ## Reading further on -/

theorem lexemesFrom_add (distance start : Nat) (cs : List Char) :
    lexemesFrom (distance + start) cs = (lexemesFrom start cs).map (.relocate (distance + ·)) := by
  fun_induction lexemesFrom start cs with
  | case1 start => simp [lexemesFrom]
  | case2 start c cs hblank ih => rw [lexemesFrom_of_isBlank hblank, ← ih, Nat.add_assoc]
  | case3 start c cs hblank read =>
    rename_i ih
    have hscan : Token.scan c cs = (read.1, read.2) := rfl
    rw [lexemesFrom_of_scan (Bool.eq_false_iff.mpr hblank) hscan, List.map_cons, ← ih,
      Nat.add_assoc]
    rfl

/-- Further on in a text nothing changes within a token. -/
theorem keepsDistances_add (distance : Nat) (lexemes : List Lexeme) :
    KeepsDistances (distance + ·) lexemes :=
  fun l _ _ further ↦ (Nat.add_assoc distance l.start further).symm

/-! ## Behind an equals sign -/

/-- An equals sign ends the tokens in front of it, and behind it the tokens are those of the text
there. -/
theorem lexemes_append_equals {a : String} (ha : ∀ l ∈ lexemes a, l.token.isFault = false)
    (b : String) :
    lexemes (a ++ "=" ++ b) = lexemes a ++ ⟨.equals, '=', byteSize a.toList⟩ ::
      (lexemes b).map (.relocate (byteSize a.toList + 1 + ·)) := by
  have htext : (a ++ "=" ++ b).toList = a.toList ++ '=' :: b.toList := by simp
  have hscan : Token.scan '=' b.toList = (.equals, b.toList) := rfl
  rw [lexemes, htext, lexemesFrom_append ha (endsWord_cons.mpr (by decide)), Nat.zero_add,
    lexemesFrom_of_scan (by decide) hscan, lexemes, lexemes, ← lexemesFrom_add]
  rfl

namespace Equation

/-- Behind a left side and an equals sign the right side is read as it would be alone. -/
theorem parse_append_equals {a : String} {l : Expr}
    (hderives : Derives .expression ((lexemes a).map Lexeme.token) l) (b : String) :
    Equation.parse (a ++ "=" ++ b) = ((Expr.parse b).map (equality l)).mapError fun error ↦
      ⟨a ++ "=" ++ b, error.cause, byteSize a.toList + 1 + error.position⟩ := by
  have hsize : byteSize (a ++ "=" ++ b).toList = byteSize a.toList + 1 + byteSize b.toList := by
    rw [String.toList_append, String.toList_append, Text.byteSize_append, Text.byteSize_append]
    rfl
  have hequation := readWhole_relocate (keepsDistances_add (byteSize a.toList + 1) (lexemes b))
    (byteSize b.toList)
  rw [Equation.parse, lexemes_append_equals hderives.isFault_token, readEquation,
    readExpr_of_derives_of_equals _ hderives, hsize, Expr.parse]
  simp only [bind, Except.bind, hequation]
  cases readWhole (byteSize b.toList) (lexemes b) with
  | ok r => rfl
  | error fault => rfl

end Equation

/-! ## Left sides -/

theorem Grammar.Derives.equals_notMem {category : Category} {tokens : List Token} {e : Expr}
    (h : Derives category tokens e) : .equals ∉ tokens := by
  induction h with
  | number text | name text => simp
  | call f h ih | group h ih => simpa using ih
  | factor h ih | term h ih | expression h ih => exact ih
  | negation h ih => simpa using ih
  | power hl hr ihl ihr | product hop hl hr ihl ihr | sum hop hl hr ihl ihr =>
    simpa using ⟨ihl, ihr⟩

/-- Spaces and tabs are all the white space that the text ends with. -/
def EndsInBlanks (text : String) : Prop :=
  ∀ c ∈ text.toList.rtakeWhile isWhiteSpace, isBlank c = true

namespace Expr

variable {text : String} {e : Expr}

theorem equals_notMem_of_parse (h : Expr.parse text = .ok e) : '=' ∉ text.toList := by
  obtain ⟨tokens, trailing, htokens, hderives, hempty⟩ :=
    readWhole_eq_ok_iff.mp (mapError_eq_ok_iff.mp h)
  have hnone : Token.ofSymbol '=' ∉ (lexemes text).map Lexeme.token := by
    rw [htokens]
    intro hmem
    rcases List.mem_append.mp hmem with hmem | hmem
    · exact hderives.equals_notMem hmem
    · cases hempty _ hmem
  exact notMem_of_notMem_tokens (by decide) (by decide) hnone

/-- The tokens of a left side are those of its expression. -/
theorem derives_lexemes (h : Expr.parse text = .ok e) (hend : EndsInBlanks text) :
    Derives .expression ((lexemes text).map Lexeme.token) e := by
  obtain ⟨tokens, trailing, htokens, hderives, hempty⟩ :=
    readWhole_eq_ok_iff.mp (mapError_eq_ok_iff.mp h)
  obtain ⟨read, rest, hlexemes, rfl, rfl⟩ := List.map_eq_append_iff.mp htokens
  obtain ⟨front, behind, hsplit, hrest, hhead, -⟩ := exists_front hlexemes hderives.isFault_token
  have hspaces : ∀ c ∈ behind, isWhiteSpace c = true := by
    apply (forall_isEmptyToken_iff (0 + byteSize front) behind).mp
    rw [← hrest]
    exact fun l hl ↦ hempty _ (List.mem_map_of_mem hl)
  -- White space behind the last token would start with something else than a blank.
  obtain rfl : behind = [] := by
    cases behind with
    | nil => rfl
    | cons c behind =>
      have hreverse : ∀ x ∈ (c :: behind).reverse, isWhiteSpace x = true :=
        fun x hx ↦ hspaces x (List.mem_reverse.mp hx)
      have hmem : c ∈ text.toList.rtakeWhile isWhiteSpace := by
        rw [hsplit, List.rtakeWhile, List.reverse_append, List.takeWhile_append_of_pos hreverse]
        simp
      have hblank := hend c hmem
      rw [hhead c rfl] at hblank
      cases hblank
  have hnone : rest = [] := by rw [hrest, lexemesFrom]
  rwa [hlexemes, hnone, List.append_nil]

/-- An expression whose tokens are all that is read from a text is read from it. -/
theorem parse_of_derives_lexemes (h : Derives .expression ((lexemes text).map Lexeme.token) e) :
    Expr.parse text = .ok e :=
  mapError_eq_ok_iff.mpr (readWhole_eq_ok_iff.mpr
    ⟨_, [], (List.append_nil _).symm, h, List.forall_mem_nil _⟩)

end Expr

namespace Equation

/-- An equation has an equals sign, in front of which all that is read is its left side. -/
theorem exists_left_of_parse {text : String} {l r : Expr}
    (h : Equation.parse text = .ok (.equality l r)) :
    ∃ a b, text = a ++ "=" ++ b ∧ Derives .expression ((lexemes a).map Lexeme.token) l := by
  obtain ⟨_, trailing, htokens, hderives, -⟩ :=
    exists_derivesEquation_of_readEquation (mapError_eq_ok_iff.mp h)
  cases hderives with
  | @equality ls rs _ _ hl hr =>
    rw [List.append_assoc, List.cons_append] at htokens
    obtain ⟨left, rest, hlexemes, rfl, hrest⟩ := List.map_eq_append_iff.mp htokens
    obtain ⟨equals, right, rfl, hequals, -⟩ := List.map_eq_cons_iff.mp hrest
    obtain ⟨front, c, behind, place, hsplit, hscan, -, hfront⟩ :=
      exists_front_of_cons hlexemes hl.isFault_token
    obtain ⟨rfl, -⟩ : c = '=' ∧ _ :=
      Token.eq_of_text_scan (congrArg Token.text (hscan.trans hequals))
    have hleft : lexemes (String.ofList front) = left := by
      rwa [lexemes, String.toList_ofList]
    refine ⟨String.ofList front, String.ofList behind, ?_, by rwa [hleft]⟩
    apply String.toList_injective
    simp [hsplit]

theorem parse_sides {text : String} {l r : Expr} (h : Equation.parse text = .ok (.equality l r)) :
    ∃ a b, text = a ++ "=" ++ b ∧ '=' ∉ a.toList ∧ '=' ∉ b.toList ∧ EndsInBlanks a ∧
      Expr.parse a = .ok l ∧ Expr.parse b = .ok r ∧
      Expr.parse text = .error ⟨text, .misplacedOperator '=', byteSize a.toList⟩ := by
  obtain ⟨a, b, rfl, hderives⟩ := exists_left_of_parse h
  have ha : Expr.parse a = .ok l := Expr.parse_of_derives_lexemes hderives
  have hb : Expr.parse b = .ok r := by
    rw [parse_append_equals hderives] at h
    have hmap := mapError_eq_ok_iff.mp h
    cases hright : Expr.parse b with
    | error error =>
      rw [hright] at hmap
      cases hmap
    | ok e =>
      rw [hright] at hmap
      cases hmap
      rfl
  have hend : EndsInBlanks a := by
    intro c hc
    have hmem : c ∈ a.toList := (List.rtakeWhile_suffix _ _).subset hc
    exact isBlank_of_isFault_eq_false hderives.isFault_token c hmem (List.mem_rtakeWhile_imp hc)
  have hmisplaced : Expr.parse (a ++ "=" ++ b) =
      .error ⟨a ++ "=" ++ b, .misplacedOperator '=', byteSize a.toList⟩ := by
    rw [Expr.parse, lexemes_append_equals hderives.isFault_token, readWhole,
      readExpr_of_derives_of_equals _ hderives]
    rfl
  exact ⟨a, b, rfl, Expr.equals_notMem_of_parse ha, Expr.equals_notMem_of_parse hb, hend, ha, hb,
    hmisplaced⟩

theorem parse_eq_ok_expression_iff {text : String} {e : Expr} :
    Equation.parse text = .ok (.expression e) ↔ Expr.parse text = .ok e := by
  constructor
  · intro h
    obtain ⟨tokens, hlayout, hderives⟩ := exists_layout_of_parse h
    cases hderives with
    | expression hderives => exact Expr.parse_of_layout hlayout hderives
  · intro h
    obtain ⟨tokens, hlayout, hderives⟩ := Expr.exists_layout_of_parse h
    exact parse_of_layout hlayout (.expression hderives)

/-- An equation is parsed as its two sides: a left side that ends in no other white space than
blanks can be put in front of any right side, be it one with an error, and every equation consists
of two sides at its only equals sign. What has no equals sign is parsed as the expression it is. -/
theorem parse_as_sides :
    (∀ a b l, Expr.parse a = .ok l → EndsInBlanks a →
      (∀ r, Expr.parse b = .ok r → Equation.parse (a ++ "=" ++ b) = .ok (.equality l r)) ∧
      ∀ error, Expr.parse b = .error error → Equation.parse (a ++ "=" ++ b) =
        .error ⟨a ++ "=" ++ b, error.cause, byteSize a.toList + 1 + error.position⟩) ∧
    (∀ text l r, Equation.parse text = .ok (.equality l r) →
      ∃ a b, text = a ++ "=" ++ b ∧ '=' ∉ a.toList ∧ '=' ∉ b.toList ∧ EndsInBlanks a ∧
        Expr.parse a = .ok l ∧ Expr.parse b = .ok r ∧
        Expr.parse text = .error ⟨text, .misplacedOperator '=', byteSize a.toList⟩) ∧
    ∀ text e, Equation.parse text = .ok (.expression e) ↔ Expr.parse text = .ok e := by
  refine ⟨fun a b l ha hend ↦ ?_, fun text l r ↦ parse_sides,
    fun text e ↦ parse_eq_ok_expression_iff⟩
  have hparse := parse_append_equals (Expr.derives_lexemes ha hend) b
  constructor
  · intro r hb
    rw [hparse, hb]
    rfl
  · intro error hb
    rw [hparse, hb]
    rfl

/-- The tab behind `-x` is no part of the left side, and the exponent of the right side is at fault
where it is at fault alone, four bytes on. -/
theorem parse_as_sides_of_exponent :
    Expr.parse "-x\t" = .ok (.neg (.var "x")) ∧ EndsInBlanks "-x\t" ∧
      Expr.parse " 2e-1" = .ok (.number "2e-1") ∧
      Equation.parse ("-x\t" ++ "=" ++ " 2e-1") =
        .ok (.equality (.neg (.var "x")) (.number "2e-1")) ∧
      Expr.parse " 2e-y" = .error ⟨" 2e-y", .malformedExponent "2e-", 4⟩ ∧
      Equation.parse ("-x\t" ++ "=" ++ " 2e-y") =
        .error ⟨"-x\t" ++ "=" ++ " 2e-y", .malformedExponent "2e-", 8⟩ ∧
      ∃ a b, "-x\t= 2e-1" = a ++ "=" ++ b ∧ Expr.parse a = .ok (.neg (.var "x")) ∧
        Expr.parse b = .ok (.number "2e-1") := by
  have ha : Expr.parse "-x\t" = .ok (.neg (.var "x")) := by decide +kernel
  have hend : EndsInBlanks "-x\t" := List.all_eq_true.mp (by decide +kernel)
  have hb : Expr.parse " 2e-1" = .ok (.number "2e-1") := by decide +kernel
  have hfault : Expr.parse " 2e-y" = .error ⟨" 2e-y", .malformedExponent "2e-", 4⟩ := by
    decide +kernel
  have hwhole := (parse_as_sides.1 "-x\t" " 2e-1" _ ha hend).1 _ hb
  obtain ⟨a, b, htext, -, -, -, hleft, hright, -⟩ := parse_as_sides.2.1 _ _ _ hwhole
  exact ⟨ha, hend, hb, hwhole, hfault, (parse_as_sides.1 "-x\t" " 2e-y" _ ha hend).2 _ hfault,
    a, b, htext, hleft, hright⟩

end Equation

end ClosedForm
