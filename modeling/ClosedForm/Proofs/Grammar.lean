import ClosedForm.Proofs.Layout

/-!
# The grammar of equations

An expression is a sum of terms, the first of which may be negated; a term is a product of factors;
a factor is a power of primaries. Operators of one kind group to the left. The grammar says which
tokens stand for which tree and nothing about how to find it; only its lowest and highest levels
meet, in parentheses.
-/

namespace ClosedForm.Grammar

/-- The parts of an equation, from the loosest to the tightest. -/
inductive Category where
  | expression
  | term
  | factor
  | primary
  deriving DecidableEq

/-- The tokens of a part of an equation and the tree they stand for. -/
inductive Derives : Category → List Token → Expr → Prop where
  | number (text : String) : Derives .primary [.number text] (.number text)
  | name (text : String) : Derives .primary [.name text] (.var text)
  | call (f : Fn) {tokens : List Token} {e : Expr} (h : Derives .expression tokens e) :
      Derives .primary (.function f :: .opening :: (tokens ++ [.closing])) (.call f e)
  | group {tokens : List Token} {e : Expr} (h : Derives .expression tokens e) :
      Derives .primary (.opening :: (tokens ++ [.closing])) e
  | factor {tokens : List Token} {e : Expr} (h : Derives .primary tokens e) :
      Derives .factor tokens e
  | power {ls rs : List Token} {l r : Expr} (hl : Derives .factor ls l)
      (hr : Derives .primary rs r) : Derives .factor (ls ++ .operator .power :: rs) (.pow l r)
  | term {tokens : List Token} {e : Expr} (h : Derives .factor tokens e) : Derives .term tokens e
  | product {op : BinaryOp} {ls rs : List Token} {l r : Expr} (hop : op = .times ∨ op = .divide)
      (hl : Derives .term ls l) (hr : Derives .factor rs r) :
      Derives .term (ls ++ .operator op :: rs) (.binary op l r)
  | expression {tokens : List Token} {e : Expr} (h : Derives .term tokens e) :
      Derives .expression tokens e
  | negation {tokens : List Token} {e : Expr} (h : Derives .term tokens e) :
      Derives .expression (.operator .minus :: tokens) (.neg e)
  | sum {op : BinaryOp} {ls rs : List Token} {l r : Expr} (hop : op = .plus ∨ op = .minus)
      (hl : Derives .expression ls l) (hr : Derives .term rs r) :
      Derives .expression (ls ++ .operator op :: rs) (.binary op l r)

/-- The tokens of an equation, with at most one equals sign. -/
inductive DerivesEquation : List Token → Equation → Prop where
  | expression {tokens : List Token} {e : Expr} (h : Derives .expression tokens e) :
      DerivesEquation tokens (.expression e)
  | equality {ls rs : List Token} {l r : Expr} (hl : Derives .expression ls l)
      (hr : Derives .expression rs r) : DerivesEquation (ls ++ .equals :: rs) (.equality l r)

/-! ## Levels -/

namespace Category

/-- The categories by how tightly they hold together, on the scale of operators. -/
def level : Category → Nat
  | expression => 1
  | term => 2
  | factor => 3
  | primary => 4

/-- What an operator makes, and takes on its left. -/
def ofOp : BinaryOp → Category
  | .plus | .minus => expression
  | .times | .divide => term
  | .power => factor

/-- What an operator takes on its right. -/
def rightOfOp : BinaryOp → Category
  | .plus | .minus => term
  | .times | .divide => factor
  | .power => primary

@[simp] theorem level_ofOp (op : BinaryOp) : (ofOp op).level = op.precedence := by
  cases op <;> rfl

@[simp] theorem level_rightOfOp (op : BinaryOp) : (rightOfOp op).level = op.precedence + 1 := by
  cases op <;> rfl

end Category

namespace Derives

theorem operation {op : BinaryOp} {ls rs : List Token} {l r : Expr}
    (hl : Derives (.ofOp op) ls l) (hr : Derives (.rightOfOp op) rs r) :
    Derives (.ofOp op) (ls ++ .operator op :: rs) (.binary op l r) := by
  cases op with
  | plus => exact sum (.inl rfl) hl hr
  | minus => exact sum (.inr rfl) hl hr
  | times => exact product (.inl rfl) hl hr
  | divide => exact product (.inr rfl) hl hr
  | power => exact power hl hr

/-- What holds together tightly may stand where a looser part is due. -/
theorem loosen {tight loose : Category} {tokens : List Token} {e : Expr}
    (h : Derives tight tokens e) (hlevel : loose.level ≤ tight.level) : Derives loose tokens e := by
  cases tight with
  | primary =>
    cases loose with
    | primary => exact h
    | factor => exact h.factor
    | term => exact h.factor.term
    | expression => exact h.factor.term.expression
  | factor =>
    cases loose with
    | primary => simp [Category.level] at hlevel
    | factor => exact h
    | term => exact h.term
    | expression => exact h.term.expression
  | term =>
    cases loose with
    | primary | factor => simp [Category.level] at hlevel
    | term => exact h
    | expression => exact h.expression
  | expression =>
    cases loose with
    | primary | factor | term => simp [Category.level] at hlevel
    | expression => exact h

/-- No derivation holds a token that is kept for an error. -/
theorem isFault {category : Category} {tokens : List Token} {e : Expr}
    (h : Derives category tokens e) : ∀ t ∈ tokens, t.isFault = false := by
  induction h with
  | number text | name text => simp [Token.isFault]
  | call f h ih | group h ih => simpa [Token.isFault, or_imp, forall_and] using ih
  | factor h ih | term h ih | expression h ih => exact ih
  | negation h ih => simpa [Token.isFault] using ih
  | power hl hr ihl ihr | product hop hl hr ihl ihr | sum hop hl hr ihl ihr =>
    simpa [Token.isFault, or_imp, forall_and] using ⟨ihl, ihr⟩

theorem isFault_token {category : Category} {read : List Lexeme} {e : Expr}
    (h : Derives category (read.map Lexeme.token) e) : ∀ l ∈ read, l.token.isFault = false :=
  fun _ hl ↦ h.isFault _ (List.mem_map_of_mem hl)

end Derives

theorem DerivesEquation.isFault {tokens : List Token} {q : Equation}
    (h : DerivesEquation tokens q) : ∀ t ∈ tokens, t.isFault = false := by
  cases h with
  | expression h => exact h.isFault
  | equality hl hr => simpa [Token.isFault, or_imp, forall_and] using ⟨hl.isFault, hr.isFault⟩

end ClosedForm.Grammar
