import ClosedForm.Proofs.RoundTrip

/-!
# Calls in the text of a tree

A call is found in the text of a tree by what is written in front of it (`Expr.CallAt`): parentheses
and operands, and the names of the functions in whose arguments it stands. The tokens in front of a
call lay out that part of the text, and each function among them is called further to the left
(`exists_leads_of_callAt`).
-/

namespace ClosedForm

open Text (byteSize)

theorem byteSize_le_of_isPrefix {cs ds : List Char} (h : cs <+: ds) :
    byteSize cs ≤ byteSize ds := by
  obtain ⟨rest, rfl⟩ := h
  rw [Text.byteSize_append]
  exact Nat.le_add_right _ _

namespace Expr

/-- The parenthesis in front of an operand, if there is one. -/
def opening (operand : Expr) : String :=
  if operand.isCompound then "(" else ""

def openingTokens (operand : Expr) : List Token :=
  if operand.isCompound then [.opening] else []

/-- The function is called in the tree, and `front` is the text of the tree up to its name. -/
inductive CallAt : Expr → String → Fn → Prop where
  | call (f : Fn) (argument : Expr) : CallAt (call f argument) "" f
  | argument (f : Fn) {argument : Expr} {front : String} {g : Fn} (h : CallAt argument front g) :
      CallAt (.call f argument) (f.name ++ "(" ++ front) g
  | negation {operand : Expr} {front : String} {g : Fn} (h : CallAt operand front g) :
      CallAt (neg operand) ("-" ++ (operand.opening ++ front)) g
  | left (op : BinaryOp) {left : Expr} (right : Expr) {front : String} {g : Fn}
      (h : CallAt left front g) : CallAt (binary op left right) (left.opening ++ front) g
  | right (op : BinaryOp) (left : Expr) {right : Expr} {front : String} {g : Fn}
      (h : CallAt right front g) :
      CallAt (binary op left right)
        (left.enclose left.render ++ separator op ++ (right.opening ++ front)) g

/-- The functions of a tree are the ones that are called somewhere in its text. -/
theorem exists_callAt_iff {e : Expr} {f : Fn} : (∃ front, e.CallAt front f) ↔ f ∈ e.functions := by
  constructor
  · rintro ⟨front, h⟩
    induction h with
    | call f argument => exact List.mem_cons_self
    | argument f h ih => exact List.mem_cons_of_mem f ih
    | negation h ih => exact ih
    | left op right h ih => exact List.mem_append_left right.functions ih
    | right op left h ih => exact List.mem_append_right left.functions ih
  · intro h
    induction e with
    | number text | var name => cases h
    | unary op operand ih =>
      cases op with
      | negate =>
        obtain ⟨front, hcall⟩ := ih h
        exact ⟨_, hcall.negation⟩
      | call g =>
        rcases List.mem_cons.mp h with rfl | hargument
        · exact ⟨_, .call f operand⟩
        · obtain ⟨front, hcall⟩ := ih hargument
          exact ⟨_, hcall.argument g⟩
    | binary op left right ihl ihr =>
      rcases List.mem_append.mp h with hleft | hright
      · obtain ⟨front, hcall⟩ := ihl hleft
        exact ⟨_, hcall.left op right⟩
      · obtain ⟨front, hcall⟩ := ihr hright
        exact ⟨_, hcall.right op left⟩

/-! ## The text in front of a call -/

/-- What the text of an operand starts with stands behind the parenthesis in front of it. -/
theorem opening_append_isPrefix {operand : Expr} {text : String} {cs : List Char}
    (h : cs <+: text.toList) : operand.opening.toList ++ cs <+: (operand.enclose text).toList := by
  unfold opening enclose
  split
  · simpa using h.trans (List.prefix_append _ [')'])
  · simpa using h

namespace CallAt

variable {e : Expr} {front : String} {f : Fn}

/-- The text of a tree has the name of the function behind the front, and then a parenthesis. -/
theorem isPrefix (h : e.CallAt front f) : (front ++ f.name ++ "(").toList <+: e.render.toList := by
  induction h with
  | call f argument => simp [render]
  | argument f h ih => simpa [render] using ih.trans (List.prefix_append _ [')'])
  | negation h ih => simpa [render] using opening_append_isPrefix ih
  | left op right h ih =>
    simpa [render] using (opening_append_isPrefix ih).trans (List.prefix_append _ _)
  | right op left h ih => simpa [render] using opening_append_isPrefix ih

theorem byteSize_lt (h : e.CallAt front f) : byteSize front.toList < byteSize e.render.toList := by
  have hle := byteSize_le_of_isPrefix h.isPrefix
  have hparenthesis : byteSize ['('] = 1 := rfl
  simp only [String.toList_append, Text.byteSize_append, String.reduceToList, hparenthesis] at hle
  omega

end CallAt

end Expr

/-! ## The tokens in front of a call -/

namespace Token

/-- The tokens start with `before` and a call of the function, and `front` is the text of `before`
up to the name of the function. -/
structure Leads (before : List Token) (front : String) (f : Fn) (tokens : List Token) : Prop where
  isPrefix : before ++ [.function f, .opening] <+: tokens
  spells : Spells (before.map reread ++ [ofWord f.name]) (front ++ f.name)

namespace Leads

variable {before tokens : List Token} {front : String} {g : Fn}

theorem call (f : Fn) (tokens : List Token) :
    Leads [] "" f (.function f :: .opening :: tokens) where
  isPrefix := by simp
  spells := by
    simpa [text_ofWord] using Spells.token (isWellFormed_ofWord (isIdentifier_name f))

theorem append (h : Leads before front g tokens) (more : List Token) :
    Leads before front g (tokens ++ more) :=
  ⟨h.isPrefix.trans (List.prefix_append _ _), h.spells⟩

theorem argument (f : Fn) (h : Leads before front g tokens) :
    Leads (.function f :: .opening :: before) (f.name ++ "(" ++ front) g
      (.function f :: .opening :: (tokens ++ [.closing])) where
  isPrefix := by simpa [List.cons_prefix_cons] using (h.append [.closing]).isPrefix
  spells := by simpa [reread, String.append_assoc] using h.spells.call_opening f

theorem minus (h : Leads before front g tokens) :
    Leads (.operator .minus :: before) ("-" ++ front) g (.operator .minus :: tokens) where
  isPrefix := List.cons_prefix_cons.mpr ⟨rfl, h.isPrefix⟩
  spells := by
    rw [String.append_assoc]
    exact h.spells.symbol_cons (t := .operator .minus) trivial rfl

theorem enclosed {operand : Expr} (h : Leads before front g operand.tokens) :
    Leads (operand.openingTokens ++ before) (operand.opening ++ front) g
      (operand.encloseTokens operand.tokens) := by
  unfold Expr.openingTokens Expr.opening Expr.encloseTokens
  split
  · constructor
    · exact List.cons_prefix_cons.mpr ⟨rfl, (h.append [.closing]).isPrefix⟩
    · rw [String.append_assoc]
      exact h.spells.symbol_cons (t := .opening) trivial rfl
  · simpa using h

theorem operation (op : BinaryOp) {ls : List Token} {text : String}
    (hl : Spells (ls.map reread) text) (h : Leads before front g tokens) :
    Leads (ls ++ .operator op :: before) (text ++ Expr.separator op ++ front) g
      (ls ++ .operator op :: tokens) where
  isPrefix := by simpa [List.cons_prefix_cons] using h.isPrefix
  spells := by
    rw [String.append_assoc]
    simpa [reread] using Expr.spells_operation op hl h.spells

end Leads

end Token

namespace Expr

/-- The function is called somewhere to the left of the end of `front`. -/
def CallsWithin (e : Expr) (front : String) (g : Fn) : Prop :=
  ∃ other, e.CallAt other g ∧ byteSize other.toList < byteSize front.toList

theorem CallsWithin.map {e whole : Expr} {front : String} {g : Fn} (h : e.CallsWithin front g)
    {prepend : String} (hwhole : ∀ other, e.CallAt other g → whole.CallAt (prepend ++ other) g) :
    whole.CallsWithin (prepend ++ front) g := by
  obtain ⟨other, hcall, hlt⟩ := h
  refine ⟨_, hwhole other hcall, ?_⟩
  simpa using hlt

/-- The tokens in front of a call. The functions among them are called further to the left. -/
theorem exists_leads_of_callAt {e : Expr} {front : String} {f : Fn} (h : e.CallAt front f)
    (he : e.HasWritableLeaves) :
    ∃ before, Token.Leads before front f e.tokens ∧
      ∀ g, .function g ∈ before → e.CallsWithin front g := by
  have hopening (operand : Expr) (g : Fn) : .function g ∉ operand.openingTokens := by
    unfold openingTokens
    split <;> simp
  induction h with
  | call f argument => exact ⟨[], .call f _, by simp⟩
  | @argument f argument front g h ih =>
    obtain ⟨before, hleads, hwithin⟩ := ih he
    refine ⟨_, hleads.argument f, fun other hmem ↦ ?_⟩
    obtain rfl | hmem : other = f ∨ .function other ∈ before := by simpa using hmem
    · have hpos := Char.utf8Size_pos '('
      refine ⟨"", .call _ argument, ?_⟩
      simp only [String.toList_append, Text.byteSize_append, String.reduceToList,
        Text.byteSize_cons, Text.byteSize_nil]
      omega
    · exact (hwithin other hmem).map fun _ hcall ↦ hcall.argument f
  | @negation operand front g h ih =>
    obtain ⟨before, hleads, hwithin⟩ := ih he
    refine ⟨_, hleads.enclosed.minus, fun other hmem ↦ ?_⟩
    have hbefore : .function other ∈ before := by simpa [hopening] using hmem
    rw [← String.append_assoc]
    exact (hwithin other hbefore).map fun _ hcall ↦ String.append_assoc .. ▸ hcall.negation
  | @left op left right front g h ih =>
    obtain ⟨before, hleads, hwithin⟩ := ih he.1
    refine ⟨_, hleads.enclosed.append _, fun other hmem ↦ ?_⟩
    have hbefore : .function other ∈ before := by simpa [hopening] using hmem
    exact (hwithin other hbefore).map fun _ hcall ↦ hcall.left op right
  | @right op left right front g h ih =>
    obtain ⟨before, hleads, hwithin⟩ := ih he.2
    have hl := spells_enclose (spells_render he.1)
    refine ⟨_, hleads.enclosed.operation op hl, fun other hmem ↦ ?_⟩
    obtain hleft | hbefore : other ∈ left.functions ∨ .function other ∈ before := by
      simpa [hopening, function_mem_encloseTokens_iff, function_mem_tokens_iff] using hmem
    · obtain ⟨found, hcall⟩ := exists_callAt_iff.mpr hleft
      have hlt := hcall.byteSize_lt
      have hle := byteSize_le_of_isPrefix
        (@opening_append_isPrefix left _ _ (List.prefix_refl left.render.toList))
      refine ⟨_, hcall.left op right, ?_⟩
      simp only [String.toList_append, Text.byteSize_append] at hle ⊢
      omega
    · rw [← String.append_assoc]
      exact (hwithin other hbefore).map fun _ hcall ↦ String.append_assoc .. ▸ hcall.right op left

end Expr

end ClosedForm
