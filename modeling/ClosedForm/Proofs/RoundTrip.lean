import ClosedForm.Proofs.Reading

/-!
# Writing and reading again

A tree is writable if its leaves are numbers and names as the scanner takes them and its functions
are the reserved ones. The text of a writable tree is a layout of tokens that derive the tree, and
whatever is read from a text is writable. So a tree is read back from its text exactly if it is
writable, and an equation that has been read once is always read back (`parse_render_iff`).
-/

namespace ClosedForm

open Grammar

namespace Expr

/-- The trees that equations can be written for. -/
def IsWritable : Expr → Prop
  | number text => IsNumeral text.toList
  | var name => IsIdentifier name.toList ∧ ∀ f ∈ Fn.writable, name ≠ f.name
  | unary .negate operand => operand.IsWritable
  | unary (.call f) argument => f ∈ Fn.writable ∧ argument.IsWritable
  | binary _ left right => left.IsWritable ∧ right.IsWritable

/-- The trees whose leaves are numbers and names as the scanner takes them. Any function may be
called in them. -/
def HasWritableLeaves : Expr → Prop
  | number text => IsNumeral text.toList
  | var name => IsIdentifier name.toList ∧ ∀ f ∈ Fn.writable, name ≠ f.name
  | unary _ operand => operand.HasWritableLeaves
  | binary _ left right => left.HasWritableLeaves ∧ right.HasWritableLeaves

theorem isWritable_iff {e : Expr} :
    e.IsWritable ↔ e.HasWritableLeaves ∧ ∀ f ∈ e.functions, f ∈ Fn.writable := by
  induction e with
  | number text | var name => simp [IsWritable, HasWritableLeaves, functions]
  | unary op operand ih =>
    cases op with
    | negate => exact ih
    | call f =>
      rw [IsWritable, HasWritableLeaves, functions, List.forall_mem_cons, ih]
      exact and_left_comm
  | binary op left right ihl ihr =>
    rw [IsWritable, HasWritableLeaves, functions, List.forall_mem_append, ihl, ihr]
    exact and_and_and_comm

theorem IsWritable.hasWritableLeaves {e : Expr} (h : e.IsWritable) : e.HasWritableLeaves :=
  (isWritable_iff.mp h).1

/-! ## What is read is writable -/

theorem isWritable_of_derives {category : Category} {tokens : List Token} {e : Expr}
    (h : Derives category tokens e) (htokens : ∀ t ∈ tokens, t.IsWellFormed) : e.IsWritable := by
  induction h with
  | number text => exact htokens (.number text) List.mem_cons_self
  | name text => exact htokens (.name text) List.mem_cons_self
  | call f h ih =>
    have hf : f ∈ Fn.writable := htokens (.function f) List.mem_cons_self
    exact ⟨hf, ih fun t ht ↦ htokens t (by simp [ht])⟩
  | group h ih => exact ih fun t ht ↦ htokens t (by simp [ht])
  | factor h ih | term h ih | expression h ih => exact ih htokens
  | negation h ih => exact ih fun t ht ↦ htokens t (by simp [ht])
  | power hl hr ihl ihr | product hop hl hr ihl ihr | sum hop hl hr ihl ihr =>
    exact ⟨ihl fun t ht ↦ htokens t (by simp [ht]), ihr fun t ht ↦ htokens t (by simp [ht])⟩

theorem isWritable_of_parse {text : String} {e : Expr} (h : Expr.parse text = .ok e) :
    e.IsWritable := by
  obtain ⟨tokens, hlayout, hderives⟩ := exists_layout_of_parse h
  exact isWritable_of_derives hderives hlayout.isWellFormed

/-! ## The tokens of a tree -/

/-- The tokens of an operand, given those it has on its own. -/
def encloseTokens (operand : Expr) (tokens : List Token) : List Token :=
  if operand.isCompound then .opening :: (tokens ++ [.closing]) else tokens

/-- The tokens that a tree is written with. -/
def tokens : Expr → List Token
  | number text => [.number text]
  | var name => [.name name]
  | unary .negate operand => .operator .minus :: operand.encloseTokens operand.tokens
  | unary (.call f) argument => .function f :: .opening :: (argument.tokens ++ [.closing])
  | binary op left right =>
    left.encloseTokens left.tokens ++ .operator op :: right.encloseTokens right.tokens

end Expr

/-- What the name of a function is read as: only some of the names are reserved. -/
def Token.reread : Token → Token
  | function f => ofWord f.name
  | t => t

theorem Token.map_reread_of_writable {tokens : List Token}
    (h : ∀ f, .function f ∈ tokens → f ∈ Fn.writable) : tokens.map reread = tokens := by
  rw [List.map_congr_left (g := id), List.map_id]
  intro t ht
  cases t with
  | function f => exact ofWord_function (h f ht)
  | number text | name text | operator op | equals | opening | closing | stray c
  | malformed fault => rfl

namespace Expr

theorem derives_encloseTokens {e : Expr} (hexpression : Derives .expression e.tokens e)
    (hprimary : e.isCompound = false → Derives .primary e.tokens e) :
    Derives .primary (e.encloseTokens e.tokens) e := by
  unfold encloseTokens
  split
  · exact hexpression.group
  · next h => exact hprimary (Bool.eq_false_iff.mpr h)

theorem derives_tokens (e : Expr) :
    Derives .expression e.tokens e ∧ (e.isCompound = false → Derives .primary e.tokens e) := by
  have hloosen {tokens : List Token} {e : Expr} (h : Derives .primary tokens e) :
      Derives .expression tokens e ∧ (e.isCompound = false → Derives .primary tokens e) :=
    ⟨h.loosen (by decide), fun _ ↦ h⟩
  induction e with
  | number text => exact hloosen (.number text)
  | var name => exact hloosen (.name name)
  | unary op operand ih =>
    cases op with
    | negate =>
      have hoperand := derives_encloseTokens ih.1 ih.2
      exact ⟨.negation (hoperand.loosen (by decide)), fun h ↦ by cases h⟩
    | call f => exact hloosen (.call f ih.1)
  | binary op left right ihl ihr =>
    have hleft := derives_encloseTokens ihl.1 ihl.2
    have hright := derives_encloseTokens ihr.1 ihr.2
    have hop : Derives (.ofOp op) (binary op left right).tokens (binary op left right) :=
      .operation (hleft.loosen (by cases op <;> decide)) (hright.loosen (by cases op <;> decide))
    exact ⟨hop.loosen (by cases op <;> decide), fun h ↦ by cases h⟩

/-! ## The text of a tree -/

end Expr

open Text (isBlank)

theorem endsWord_blanks {spaces cs : List Char} (hspaces : ∀ c ∈ spaces, isBlank c = true)
    (hend : EndsWord cs) : EndsWord (spaces ++ cs) := by
  cases spaces with
  | nil => exact hend
  | cons c spaces =>
    have hblank : c = ' ' ∨ c = '\t' := by simpa [isBlank] using hspaces c List.mem_cons_self
    apply endsWord_cons.mpr
    rcases hblank with rfl | rfl <;> decide

theorem Layout.blanks {spaces cs : List Char} {tokens : List Token}
    (hspaces : ∀ c ∈ spaces, isBlank c = true) (h : Layout tokens cs) :
    Layout tokens (spaces ++ cs) := by
  induction spaces with
  | nil => exact h
  | cons c spaces ih =>
    rw [List.forall_mem_cons] at hspaces
    exact .blank hspaces.1 (ih hspaces.2)

/-- A symbol ends the word in front of it. -/
theorem Token.endsWord_of_isWord_eq_false {t : Token} (ht : t.IsWellFormed)
    (hword : t.isWord = false) (cs : List Char) : EndsWord (t.text.toList ++ cs) := by
  cases t with
  | number text | name text | function f => cases hword
  | operator op =>
    have htext : (operator op).text.toList = [op.symbol] := by simp [text]
    rw [htext]
    apply endsWord_cons.mpr
    cases op <;> decide
  | equals | opening | closing => exact endsWord_cons.mpr (by decide)
  | stray c | malformed fault => cases ht

theorem Layout.symbol {t : Token} {tokens : List Token} {cs : List Char} (ht : t.IsWellFormed)
    (hword : t.isWord = false) (h : Layout tokens cs) :
    Layout (t :: tokens) (t.text.toList ++ cs) := by
  apply Layout.token ht _ h
  intro hwordy
  rw [hword] at hwordy
  cases hwordy

/-- The text lays out the tokens in front of whatever does not continue a word. -/
def Spells (written : List Token) (text : String) : Prop :=
  ∀ tokens cs, EndsWord cs → Layout tokens cs → Layout (written ++ tokens) (text.toList ++ cs)

namespace Spells

theorem layout {written : List Token} {text : String} (h : Spells written text) :
    Layout written text.toList := by
  have hempty := h [] [] endsWord_nil (.trailing (by simp))
  simpa using hempty

theorem token {t : Token} (ht : t.IsWellFormed) : Spells [t] t.text := by
  intro tokens cs hend hlayout
  exact .token ht (fun _ ↦ hend) hlayout

theorem symbol_cons {t : Token} {written : List Token} {text : String} (ht : t.IsWellFormed)
    (hword : t.isWord = false) (h : Spells written text) :
    Spells (t :: written) (t.text ++ text) := by
  intro tokens cs hend hlayout
  rw [String.toList_append, List.append_assoc]
  exact .symbol ht hword (h tokens cs hend hlayout)

theorem append_symbol {t : Token} {written : List Token} {text : String} (ht : t.IsWellFormed)
    (hword : t.isWord = false) (h : Spells written text) :
    Spells (written ++ [t]) (text ++ t.text) := by
  intro tokens cs _ hlayout
  rw [String.toList_append, List.append_assoc, List.append_assoc]
  exact h _ _ (t.endsWord_of_isWord_eq_false ht hword cs) (.symbol ht hword hlayout)

theorem parenthesized {written : List Token} {text : String} (h : Spells written text) :
    Spells (.opening :: (written ++ [.closing])) ("(" ++ text ++ ")") := by
  have hclosing : Spells (written ++ [.closing]) (text ++ ")") :=
    h.append_symbol (t := .closing) trivial rfl
  rw [String.append_assoc]
  exact hclosing.symbol_cons (t := .opening) trivial rfl

/-- The name of a function runs up to the parenthesis behind it. -/
theorem call_opening (f : Fn) {written : List Token} {text : String} (h : Spells written text) :
    Spells (.ofWord f.name :: .opening :: written) (f.name ++ "(" ++ text) := by
  intro tokens cs hend hlayout
  have hargument : Layout (.opening :: (written ++ tokens)) ('(' :: (text.toList ++ cs)) :=
    .symbol (t := .opening) trivial rfl (h tokens cs hend hlayout)
  have hopening : EndsWord ('(' :: (text.toList ++ cs)) := endsWord_cons.mpr (by decide)
  have hname := Layout.token (Token.isWellFormed_ofWord (Token.isIdentifier_name f))
    (fun _ ↦ hopening) hargument
  simpa [Token.text_ofWord] using hname

theorem call (f : Fn) {written : List Token} {text : String} (h : Spells written text) :
    Spells (.ofWord f.name :: .opening :: (written ++ [.closing]))
      (f.name ++ "(" ++ text ++ ")") := by
  have hargument : Spells (written ++ [.closing]) (text ++ ")") :=
    h.append_symbol (t := .closing) trivial rfl
  rw [String.append_assoc]
  exact hargument.call_opening f

/-- A symbol may stand between two operands, with blanks around it or without. -/
theorem around {ls rs : List Token} {left right : String} (hl : Spells ls left)
    (hr : Spells rs right) {t : Token} (ht : t.IsWellFormed) (hword : t.isWord = false)
    (spaces : List Char) (hspaces : ∀ c ∈ spaces, isBlank c = true) :
    Spells (ls ++ t :: rs)
      (left ++ String.ofList (spaces ++ t.text.toList ++ spaces) ++ right) := by
  intro tokens cs hend hlayout
  have hright := (hr tokens cs hend hlayout).blanks hspaces
  have hsymbol := (Layout.symbol ht hword hright).blanks hspaces
  have hleft := hl _ _ (endsWord_blanks hspaces (t.endsWord_of_isWord_eq_false ht hword _)) hsymbol
  simpa using hleft

end Spells

namespace Expr

theorem spells_operation (op : BinaryOp) {ls rs : List Token} {left right : String}
    (hl : Spells ls left) (hr : Spells rs right) :
    Spells (ls ++ .operator op :: rs) (left ++ separator op ++ right) := by
  have hspaced := hl.around hr (t := .operator op) trivial rfl [' '] (by simp [isBlank])
  have htight := hl.around hr (t := .operator op) trivial rfl [] (by simp)
  cases op with
  | power => exact htight
  | plus | minus | times | divide => exact hspaced

theorem spells_enclose {operand : Expr}
    (h : Spells (operand.tokens.map Token.reread) operand.render) :
    Spells ((operand.encloseTokens operand.tokens).map Token.reread)
      (operand.enclose operand.render) := by
  unfold encloseTokens enclose
  split
  · simpa [Token.reread] using h.parenthesized
  · exact h

/-- The text of a tree lays out its tokens, but for the functions that are not reserved. -/
theorem spells_render {e : Expr} (he : e.HasWritableLeaves) :
    Spells (e.tokens.map Token.reread) e.render := by
  induction e with
  | number text => exact .token (t := .number text) he
  | var name => exact .token (t := .name name) he
  | unary op operand ih =>
    cases op with
    | negate => exact (spells_enclose (ih he)).symbol_cons (t := .operator .minus) trivial rfl
    | call f => simpa [tokens, Token.reread, render] using (ih he).call f
  | binary op left right ihl ihr =>
    have hop := spells_operation op (spells_enclose (ihl he.1)) (spells_enclose (ihr he.2))
    simpa [tokens, Token.reread, render] using hop

theorem function_mem_encloseTokens_iff {f : Fn} (operand : Expr) (tokens : List Token) :
    .function f ∈ operand.encloseTokens tokens ↔ .function f ∈ tokens := by
  unfold encloseTokens
  split
  · simp
  · rfl

/-- The functions among the tokens of a tree are the ones called in it. -/
theorem function_mem_tokens_iff {f : Fn} {e : Expr} : .function f ∈ e.tokens ↔ f ∈ e.functions := by
  induction e with
  | number text | var name => simp [tokens, functions]
  | unary op operand ih =>
    cases op with
    | negate => simp [tokens, functions, function_mem_encloseTokens_iff, ih]
    | call g => simp [tokens, functions, ih]
  | binary op left right ihl ihr =>
    simp [tokens, functions, function_mem_encloseTokens_iff, ihl, ihr]

theorem map_reread_tokens {e : Expr} (he : ∀ f ∈ e.functions, f ∈ Fn.writable) :
    e.tokens.map Token.reread = e.tokens :=
  Token.map_reread_of_writable fun f hf ↦ he f (function_mem_tokens_iff.mp hf)

/-- A writable tree is read back from its text. -/
theorem parse_render {e : Expr} (he : e.IsWritable) : Expr.parse e.render = .ok e := by
  obtain ⟨hleaves, hfunctions⟩ := isWritable_iff.mp he
  have hspells := spells_render hleaves
  rw [map_reread_tokens hfunctions] at hspells
  exact parse_of_layout hspells.layout (derives_tokens e).1

end Expr

namespace Equation

/-- The equations all of whose trees are writable. -/
def IsWritable (q : Equation) : Prop :=
  ∀ e ∈ q.sides, e.IsWritable

theorem isWritable_of_parse {text : String} {q : Equation} (h : Equation.parse text = .ok q) :
    q.IsWritable := by
  obtain ⟨tokens, hlayout, hderives⟩ := exists_layout_of_parse h
  have htokens := hlayout.isWellFormed
  cases hderives with
  | expression he => simpa [IsWritable, sides] using Expr.isWritable_of_derives he htokens
  | equality hl hr =>
    simp only [List.forall_mem_append, List.forall_mem_cons] at htokens
    have hleft := Expr.isWritable_of_derives hl htokens.1
    have hright := Expr.isWritable_of_derives hr htokens.2.2
    simpa [IsWritable, sides] using ⟨hleft, hright⟩

/-- The tokens that an equation is written with. -/
def tokens : Equation → List Token
  | expression e => e.tokens
  | equality left right => left.tokens ++ .equals :: right.tokens

theorem derives_tokens (q : Equation) : DerivesEquation q.tokens q := by
  cases q with
  | expression e => exact .expression (Expr.derives_tokens e).1
  | equality left right =>
    exact .equality (Expr.derives_tokens left).1 (Expr.derives_tokens right).1

theorem spells_render {q : Equation} (hq : ∀ e ∈ q.sides, e.HasWritableLeaves) :
    Spells (q.tokens.map Token.reread) q.render := by
  cases q with
  | expression e => exact Expr.spells_render (hq e (by simp [sides]))
  | equality left right =>
    have hl := Expr.spells_render (hq left (by simp [sides]))
    have hr := Expr.spells_render (hq right (by simp [sides]))
    have htokens : (equality left right).tokens.map Token.reread =
        left.tokens.map Token.reread ++ .equals :: right.tokens.map Token.reread := by
      simp [tokens, Token.reread]
    rw [htokens]
    exact hl.around hr (t := .equals) trivial rfl [' '] (by simp [isBlank])

theorem map_reread_tokens {q : Equation} (hq : q.IsWritable) :
    q.tokens.map Token.reread = q.tokens := by
  have hsides (e : Expr) (he : e ∈ q.sides) : e.tokens.map Token.reread = e.tokens :=
    Expr.map_reread_tokens (Expr.isWritable_iff.mp (hq e he)).2
  cases q with
  | expression e => exact hsides e (by simp [sides])
  | equality left right =>
    have hl := hsides left (by simp [sides])
    have hr := hsides right (by simp [sides])
    simp [tokens, Token.reread, hl, hr]

/-- A writable equation is read back from its text. -/
theorem parse_render {q : Equation} (hq : q.IsWritable) : Equation.parse q.render = .ok q := by
  have hspells := spells_render fun e he ↦ (hq e he).hasWritableLeaves
  rw [map_reread_tokens hq] at hspells
  exact parse_of_layout hspells.layout q.derives_tokens

end Equation

/-- Trees and equations are read back from their texts exactly if they are writable, and what has
been read from any text is. -/
theorem parse_render_iff :
    (∀ e : Expr, Expr.parse e.render = .ok e ↔ e.IsWritable) ∧
      (∀ q : Equation, Equation.parse q.render = .ok q ↔ q.IsWritable) ∧
      (∀ text e, Expr.parse text = .ok e → e.IsWritable) ∧
      ∀ text q, Equation.parse text = .ok q → q.IsWritable ∧ Equation.parse q.render = .ok q := by
  refine ⟨fun e ↦ ⟨Expr.isWritable_of_parse, Expr.parse_render⟩,
    fun q ↦ ⟨Equation.isWritable_of_parse, Equation.parse_render⟩,
    fun text e ↦ Expr.isWritable_of_parse, fun text q h ↦ ?_⟩
  have hq := Equation.isWritable_of_parse h
  exact ⟨hq, Equation.parse_render hq⟩

/-- A negated product is rendered with parentheses that it need not be written with. -/
theorem parse_render_negated_product :
    ∃ q, Equation.parse "-a*b^2=2e-3 * sin((x) )" = .ok q ∧
      q.render = "-(a * (b^2)) = 2e-3 * sin(x)" ∧ Equation.parse q.render = .ok q := by
  let q : Equation :=
    .equality (.neg (.mul (.var "a") (.pow (.var "b") (.number "2"))))
      (.mul (.number "2e-3") (.call .sin (.var "x")))
  have hparse : Equation.parse "-a*b^2=2e-3 * sin((x) )" = .ok q := by decide +kernel
  have hrender : q.render = "-(a * (b^2)) = 2e-3 * sin(x)" := by decide +kernel
  exact ⟨q, hparse, hrender, (parse_render_iff.2.2.2 _ q hparse).2⟩

end ClosedForm
