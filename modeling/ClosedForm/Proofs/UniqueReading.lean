import ClosedForm.Proofs.RoundTrip

/-!
# One text, one tree

Tokens derive one tree at most, since the reader gets through a derivation to its tree. In the text
of a tree the functions that are not reserved are read as names, but they alone are names in front
of a parenthesis, so the tokens of the tree can be restored (`restore_reread_tokens`). A text is
therefore the text of one tree at most, whether it can be read back or not (`render_injective`).
-/

namespace ClosedForm

open Grammar
open Reader (isEmptyToken)

/-! ## One layout, one derivation -/

theorem Token.isFault_of_isEmptyToken {t : Token} (h : isEmptyToken t = true) :
    t.isFault = true := by
  cases t with
  | stray c => rfl
  | number text | name text | function f | operator op | equals | opening | closing
  | malformed fault => cases h

/-- A text is a layout of one list of tokens only. -/
theorem Layout.unique {tokens others : List Token} {cs : List Char} (h : Layout tokens cs)
    (hother : Layout others cs) : tokens = others := by
  have hread {tokens : List Token} (h : Layout tokens cs) :
      ((lexemesFrom 0 cs).map Lexeme.token).takeWhile (fun t ↦ !t.isFault) = tokens := by
    obtain ⟨hfaults, trailing, hlexemes, hempty⟩ := (layout_iff 0).mp h
    rw [hlexemes]
    apply takeWhile_of_endsWith
    · simpa using hfaults
    · intro t ht
      simpa using Token.isFault_of_isEmptyToken (hempty t (List.mem_of_mem_head? ht))
  exact (hread h).symm.trans (hread hother)

namespace Grammar

/-- Some lexemes with the given tokens. -/
theorem exists_lexemes (tokens : List Token) :
    ∃ lexemes : List Lexeme, lexemes.map Lexeme.token = tokens :=
  ⟨tokens.map fun t ↦ ⟨t, ' ', 0⟩, by simp [Function.comp_def]⟩

theorem Derives.unique {tokens : List Token} {e other : Expr} (h : Derives .expression tokens e)
    (hother : Derives .expression tokens other) : e = other := by
  obtain ⟨lexemes, rfl⟩ := exists_lexemes tokens
  have hnone : ∀ l ∈ ([] : List Lexeme).head?, ∀ op, l.token ≠ .operator op := by simp
  have hread := Reader.readExpr_of_derives 0 h hnone
  have hread' := Reader.readExpr_of_derives 0 hother hnone
  rw [hread] at hread'
  exact (Prod.mk.inj (Except.ok.inj hread')).1

theorem DerivesEquation.unique {tokens : List Token} {q other : Equation}
    (h : DerivesEquation tokens q) (hother : DerivesEquation tokens other) : q = other := by
  obtain ⟨lexemes, rfl⟩ := exists_lexemes tokens
  have hnone : lexemes.map Lexeme.token = lexemes.map Lexeme.token ++ [] :=
    (List.append_nil _).symm
  have hread := Reader.readEquation_of_derivesEquation 0 hnone h (List.forall_mem_nil _)
  have hread' := Reader.readEquation_of_derivesEquation 0 hnone hother (List.forall_mem_nil _)
  rw [hread] at hread'
  exact Except.ok.inj hread'

end Grammar

/-! ## Functions restored -/

namespace Token

/-- The name of a function is taken for the function. -/
def called : Token → Token
  | name text =>
    match Fn.all.find? fun f ↦ f.name == text with
    | some f => function f
    | none => name text
  | t => t

/-- Names in front of opening parentheses are taken for functions. -/
def restore : List Token → List Token
  | [] => []
  | t :: rest => (if rest.head? = some opening then t.called else t) :: restore rest

theorem called_ofWord (f : Fn) : (ofWord f.name).called = function f := by
  cases f <;> decide +kernel

theorem restore_cons {t : Token} (ht : t.called = t) (rest : List Token) :
    restore (t :: rest) = t :: restore rest := by
  rw [restore, ht, ite_self]

theorem restore_call (f : Fn) (rest : List Token) :
    restore (ofWord f.name :: opening :: rest) = function f :: opening :: restore rest := by
  rw [restore, List.head?_cons, if_pos rfl, called_ofWord, restore_cons rfl]

end Token

namespace Expr

theorem restore_reread_encloseTokens {operand : Expr}
    (h : ∀ rest : List Token, rest.head? ≠ some .opening →
      Token.restore (operand.tokens.map Token.reread ++ rest) =
        operand.tokens ++ Token.restore rest)
    {rest : List Token} (hrest : rest.head? ≠ some .opening) :
    Token.restore ((operand.encloseTokens operand.tokens).map Token.reread ++ rest) =
      operand.encloseTokens operand.tokens ++ Token.restore rest := by
  unfold encloseTokens
  split
  · have hinner := h (.closing :: rest) (by simp)
    rw [Token.restore_cons rfl] at hinner
    simp [Token.reread, Token.restore_cons (t := .opening) rfl, hinner]
  · exact h rest hrest

/-- The tokens of a tree are restored from what its text is read as. -/
theorem restore_reread_append (e : Expr) {rest : List Token} (hrest : rest.head? ≠ some .opening) :
    Token.restore (e.tokens.map Token.reread ++ rest) = e.tokens ++ Token.restore rest := by
  induction e generalizing rest with
  | number text => exact Token.restore_cons rfl rest
  | var name =>
    change Token.restore (.name name :: rest) = _
    rw [Token.restore, if_neg hrest]
    rfl
  | unary op operand ih =>
    cases op with
    | negate =>
      have hoperand := restore_reread_encloseTokens (fun _ ↦ ih) hrest
      simp [tokens, Token.reread, Token.restore_cons (t := .operator .minus) rfl, hoperand]
    | call f =>
      have hargument := @ih (.closing :: rest) (by simp)
      rw [Token.restore_cons rfl] at hargument
      simp [tokens, Token.reread, Token.restore_call, hargument]
  | binary op left right ihl ihr =>
    have hright := restore_reread_encloseTokens (fun _ ↦ ihr) hrest
    have hbehind : (.operator op :: ((right.encloseTokens right.tokens).map Token.reread ++
        rest)).head? ≠ some .opening := by simp
    have hleft := restore_reread_encloseTokens (fun _ ↦ ihl) hbehind
    rw [Token.restore_cons rfl, hright] at hleft
    simpa [tokens, Token.reread] using hleft

theorem restore_reread_tokens (e : Expr) :
    Token.restore (e.tokens.map Token.reread) = e.tokens := by
  have hrestore := @restore_reread_append e [] (by simp)
  rwa [Token.restore, List.append_nil, List.append_nil] at hrestore

theorem eq_of_render_eq {e other : Expr} (he : e.HasWritableLeaves)
    (hother : other.HasWritableLeaves) (h : e.render = other.render) : e = other := by
  have hlayout := (spells_render he).layout
  rw [h] at hlayout
  have hread := hlayout.unique (spells_render hother).layout
  have htokens : e.tokens = other.tokens := by
    rw [← restore_reread_tokens e, hread, restore_reread_tokens]
  have hderives := (derives_tokens e).1
  rw [htokens] at hderives
  exact hderives.unique (derives_tokens other).1

end Expr

namespace Equation

theorem restore_reread_tokens (q : Equation) :
    Token.restore (q.tokens.map Token.reread) = q.tokens := by
  cases q with
  | expression e => exact e.restore_reread_tokens
  | equality left right =>
    have hbehind : (.equals :: right.tokens.map Token.reread).head? ≠ some Token.opening := by simp
    have hleft := left.restore_reread_append hbehind
    rw [Token.restore_cons rfl, right.restore_reread_tokens] at hleft
    simpa [tokens, Token.reread] using hleft

theorem eq_of_render_eq {q other : Equation} (hq : ∀ e ∈ q.sides, e.HasWritableLeaves)
    (hother : ∀ e ∈ other.sides, e.HasWritableLeaves) (h : q.render = other.render) :
    q = other := by
  have hlayout := (spells_render hq).layout
  rw [h] at hlayout
  have hread := hlayout.unique (spells_render hother).layout
  have htokens : q.tokens = other.tokens := by
    rw [← restore_reread_tokens q, hread, restore_reread_tokens]
  have hderives := q.derives_tokens
  rw [htokens] at hderives
  exact hderives.unique other.derives_tokens

end Equation

/-- Trees and equations whose leaves are written properly have different texts if they differ,
whichever functions are called in them. -/
theorem render_injective :
    (∀ e other : Expr, e.HasWritableLeaves → other.HasWritableLeaves →
      e.render = other.render → e = other) ∧
    ∀ q other : Equation, (∀ e ∈ q.sides, e.HasWritableLeaves) →
      (∀ e ∈ other.sides, e.HasWritableLeaves) → q.render = other.render → q = other :=
  ⟨fun _ _ ↦ Expr.eq_of_render_eq, fun _ _ ↦ Equation.eq_of_render_eq⟩

/-- The formula for the variable `asin` in `2^exp = sin(-asin)` is the only tree with its text, and
so is the equation that it makes with the variable. -/
theorem render_injective_of_inverse_names :
    let formula := Expr.neg (.call .asin (.pow (.number "2") (.var "exp")))
    formula.HasWritableLeaves ∧ (Expr.var "asin").HasWritableLeaves ∧
      (∀ e : Expr, e.HasWritableLeaves → e.render = "-asin(2^exp)" → e = formula) ∧
      ∀ q : Equation, (∀ e ∈ q.sides, e.HasWritableLeaves) →
        q.render = "asin = -asin(2^exp)" → q = .equality (.var "asin") formula := by
  intro formula
  have hleaf (text : String) {e : Expr} (h : Expr.parse text = .ok e) : e.HasWritableLeaves :=
    (Expr.isWritable_of_parse h).hasWritableLeaves
  have hpower : (Expr.pow (.number "2") (.var "exp")).HasWritableLeaves :=
    hleaf "2^exp" (by decide +kernel)
  have hname : (Expr.var "asin").HasWritableLeaves := hleaf "asin" (by decide +kernel)
  have hsides : ∀ e ∈ (Equation.equality (.var "asin") formula).sides, e.HasWritableLeaves := by
    intro e he
    rcases List.mem_cons.mp he with rfl | he
    · exact hname
    · obtain rfl := List.mem_singleton.mp he
      exact hpower
  have hrender : formula.render = "-asin(2^exp)" := by decide +kernel
  have hequation : (Equation.equality (.var "asin") formula).render = "asin = -asin(2^exp)" := by
    decide +kernel
  obtain ⟨hexpr, hequations⟩ := render_injective
  exact ⟨hpower, hname, fun e he h ↦ hexpr e formula he hpower (h.trans hrender.symm),
    fun q hq h ↦ hequations q _ hq hsides (h.trans hequation.symm)⟩

end ClosedForm
