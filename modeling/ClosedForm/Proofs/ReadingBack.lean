import ClosedForm.Proofs.Calls
import ClosedForm.Proofs.Diagnosis
import ClosedForm.Proofs.Partition
import ClosedForm.Proofs.Paths
import Mathlib.Order.WellFounded

/-!
# Formulas that can be read back

The functions that undo others are not reserved, so their names are read as variables. The reader
gets through a text up to the first such name, takes it for an operand, and refuses the parenthesis
behind it. A formula can therefore be read back exactly if no sine, cosine, tangent or logarithm had
to be undone for it (`parse_formula_iff`).
-/

namespace ClosedForm

open Grammar
open Text (byteSize)

namespace Reader

/-! ## In front of a call that is not reserved -/

/-- Where a function may be called a variable may stand. -/
theorem step_name_of_step_function {state next : State} {f : Fn}
    (h : state.step (.function f) = .next next) (name : String) :
    state.step (.name name) = .next ⟨state.frames, .operator (.var name)⟩ := by
  obtain ⟨frames, stage⟩ := state
  cases stage with
  | start | operand => rfl
  | argument g => cases h
  | operator completed =>
    have hread : readOperator frames completed (.function f) = .next next := h
    rcases readOperator_eq_next hread with ⟨_, _, _, ht, -⟩ | ⟨_, _, _, ht, -⟩
    · cases ht
    · cases ht

/-- A reading that leads through the name of a function would lead to a variable instead. -/
theorem exists_run_of_run_function {state last : State} {tokens more : List Token} {f : Fn}
    (h : state.run (tokens ++ .function f :: more) = some last) (name : String) :
    ∃ frames, state.run (tokens ++ [.name name]) = some ⟨frames, .operator (.var name)⟩ := by
  obtain ⟨middle, hrun, hbehind⟩ := State.exists_run_of_append h
  rw [State.run] at hbehind
  split at hbehind
  · next next hstep =>
    have hname := State.run_cons (step_name_of_step_function hstep name) []
    exact ⟨middle.frames, (State.run_append hrun _).trans hname⟩
  · cases hbehind
  · cases hbehind

/-- Behind an operand no parenthesis can be opened. The cause tells if one is open already. -/
theorem rejects_opening {frames : List Frame} {e : Expr} {tokens : List Token}
    (hrun : State.initial.run tokens = some ⟨frames, .operator e⟩) (limit start : Nat)
    (rest : List Lexeme) :
    State.Rejects limit false ⟨frames, .operator e⟩ (⟨.opening, '(', start⟩ :: rest)
      ⟨if tokens.count .closing < tokens.count .opening then .missingRightParenthesis
        else .unexpectedCharacter '(', start⟩ := by
  have hreads : Reads ⟨frames, .operator e⟩ tokens := reads_initial.run hrun
  match hsettle : settle 1 frames e with
  | ([], whole) =>
    have hstop : State.step ⟨frames, .operator e⟩ .opening = .stop whole :=
      step_eq_stop_iff.mpr ⟨e, rfl, hsettle, by simp⟩
    have hend : State.Completes ⟨frames, .operator e⟩ whole (⟨.opening, '(', start⟩ :: rest) :=
      hstop
    have hbalanced := (hreads.derives hend).count_opening
    rw [if_neg (by omega)]
    exact .trailing hstop (by simp) ⟨_, List.mem_cons_self, rfl⟩
  | (bracket :: outer, whole) =>
    have hfail : State.step ⟨frames, .operator e⟩ .opening = .fail .missingRightParenthesis := by
      simp [State.step, readOperator, hsettle]
    have hbrackets := (State.AccountsFor.of_reads hreads).brackets
    have hopen : 0 < frames.countP Frame.isBracket := countP_isBracket_pos hsettle
    rw [if_pos (by dsimp only at hbrackets; omega)]
    exact .refuses (.step hfail)

/-- What is wrong with a parenthesis behind an operand, by the text in front of it: an open one
should be closed there, or nothing can follow. -/
def parenthesisCause (front : String) : SyntaxError.Cause :=
  if front.toList.count ')' < front.toList.count '(' then .missingRightParenthesis
  else .unexpectedCharacter '('

end Reader

open Reader (parenthesisCause)

/-- The scanner finds the tokens that a text spells. -/
theorem Spells.map_token_lexemesFrom {written : List Token} {text : String}
    (h : Spells written text) (start : Nat) :
    (lexemesFrom start text.toList).map Lexeme.token = written := by
  -- A parenthesis behind the text shows that there is no white space at its end.
  have hparenthesis : Layout [.opening] ['('] :=
    .symbol (t := .opening) trivial rfl (.trailing (by simp))
  have hlayout : Layout (written ++ [.opening]) (text.toList ++ ['(']) :=
    h _ _ (endsWord_cons.mpr (by decide)) hparenthesis
  obtain ⟨hfaults, trailing, htokens, hempty⟩ := (layout_iff start).mp hlayout
  rw [List.append_assoc] at htokens
  obtain ⟨read, rest, hlexemes, rfl, hrest⟩ := List.map_eq_append_iff.mp htokens
  obtain ⟨l, more, rfl, hl, rfl⟩ := List.map_eq_cons_iff.mp hrest
  have hread : ∀ l ∈ read, l.token.isFault = false :=
    fun l hmem ↦ hfaults _ (List.mem_append_left _ (List.mem_map_of_mem hmem))
  obtain ⟨front, c, behind, place, hcs, hscan, rfl, hfront⟩ := exists_front_of_cons hlexemes hread
  obtain ⟨rfl, hbehind⟩ : c = '(' ∧ (Token.scan c behind).2 = behind :=
    Token.eq_of_text_scan (by rw [hscan, hl]; rfl)
  rw [hbehind] at hempty
  have hnone : '(' ∉ behind :=
    notMem_of_notMem_tokens rfl rfl fun hmem ↦ absurd (hempty _ hmem) (by decide)
  rcases List.eq_nil_or_concat behind with rfl | ⟨init, last, rfl⟩
  · obtain rfl : text.toList = front := List.append_cancel_right hcs
    rw [hfront]
  · have hends : text.toList ++ ['('] = (front ++ '(' :: init) ++ [last] := by simpa using hcs
    obtain rfl : '(' = last := List.singleton_inj.mp (List.append_inj' hends rfl).2
    exact absurd (by simp) hnone

theorem Token.ofWord_of_notMem_writable {f : Fn} (hf : f ∉ Fn.writable) :
    ofWord f.name = name f.name := by
  cases f with
  | sin | cos | tan | log | abs => exact absurd (by decide) hf
  | asin | acos | atan | exp => decide +kernel

namespace Expr

/-- Only reserved functions are called in the tree. -/
def CallsReserved (e : Expr) : Prop :=
  ∀ f ∈ e.functions, f ∈ Fn.writable

/-- The call of a function that is not reserved, with none such further to the left. -/
structure IsFirstUnreserved (e : Expr) (front : String) (f : Fn) : Prop where
  call : e.CallAt front f
  unreserved : f ∉ Fn.writable
  first : ∀ other g, e.CallAt other g → g ∉ Fn.writable →
    byteSize front.toList ≤ byteSize other.toList

theorem exists_isFirstUnreserved {e : Expr} (h : ¬e.CallsReserved) :
    ∃ front f, e.IsFirstUnreserved front f := by
  let unreserved : Set String := fun front ↦ ∃ f, e.CallAt front f ∧ f ∉ Fn.writable
  have hsome : unreserved.Nonempty := by
    obtain ⟨f, hf, hunreserved⟩ : ∃ f ∈ e.functions, f ∉ Fn.writable := by
      simpa [CallsReserved] using h
    obtain ⟨front, hcall⟩ := exists_callAt_iff.mpr hf
    exact ⟨front, f, hcall, hunreserved⟩
  obtain ⟨front, ⟨f, hcall, hf⟩, hfirst⟩ :=
    (measure fun front : String ↦ byteSize front.toList).wf.has_min unreserved hsome
  exact ⟨front, f, hcall, hf,
    fun other g hother hg ↦ Nat.le_of_not_lt (hfirst other ⟨g, hother, hg⟩)⟩

/-- A text with a parenthesis behind an operand is refused there. -/
theorem parse_eq_error_of_opening {text front : String} {tokens : List Token}
    {frames : List Reader.Frame} {completed : Expr} (hspells : Spells tokens front)
    (hrun : Reader.State.initial.run tokens = some ⟨frames, .operator completed⟩)
    (htext : (front ++ "(").toList <+: text.toList) :
    Expr.parse text = .error ⟨text, parenthesisCause front, byteSize front.toList⟩ := by
  obtain ⟨rest, hrest⟩ := htext
  have htokens := hspells.map_token_lexemesFrom 0
  have hread : ∀ l ∈ lexemesFrom 0 front.toList, l.token.isFault = false := by
    intro l hl
    exact Reader.isFault_of_run hrun l.token (htokens ▸ List.mem_map_of_mem hl)
  have hopening : EndsWord ('(' :: rest) := endsWord_cons.mpr (by decide)
  have hlexemes : lexemes text = lexemesFrom 0 front.toList ++
      ⟨.opening, '(', byteSize front.toList⟩ :: lexemesFrom (byteSize front.toList + 1) rest := by
    have htext : text.toList = front.toList ++ '(' :: rest := by simp [← hrest]
    have hscan : Token.scan '(' rest = (.opening, rest) := rfl
    rw [lexemes, htext, lexemesFrom_append hread hopening, Nat.zero_add,
      lexemesFrom_of_scan rfl hscan]
    rfl
  have hcause : (if tokens.count .closing < tokens.count .opening then
      .missingRightParenthesis else .unexpectedCharacter '(') = parenthesisCause front := by
    rw [parenthesisCause, count_eq_count_tokens rfl rfl 0, count_eq_count_tokens rfl rfl 0, htokens]
    rfl
  have hrejects := Reader.rejects_opening hrun (byteSize text.toList) (byteSize front.toList)
    (lexemesFrom (byteSize front.toList + 1) rest)
  rw [hcause] at hrejects
  rw [← htokens] at hrun
  have hwhole := Reader.readWhole_eq_error_iff.mpr ⟨_, _, _, hlexemes, hrun, hrejects⟩
  exact mapError_eq_error_iff.mpr ⟨_, hwhole, rfl⟩

/-- The text of a tree is refused behind the first name of a function that is not reserved. -/
theorem parse_render_of_isFirstUnreserved {e : Expr} {front : String} {f : Fn}
    (he : e.HasWritableLeaves) (h : e.IsFirstUnreserved front f) :
    Expr.parse e.render =
      .error ⟨e.render, parenthesisCause front, byteSize (front ++ f.name).toList⟩ := by
  obtain ⟨before, ⟨⟨after, hafter⟩, hspells⟩, hwithin⟩ := exists_leads_of_callAt h.call he
  have hwritable (g : Fn) (hg : .function g ∈ before) : g ∈ Fn.writable := by
    by_contra hunreserved
    obtain ⟨other, hcall, hlt⟩ := hwithin g hg
    exact absurd (h.first other g hcall hunreserved) (Nat.not_le_of_lt hlt)
  rw [Token.map_reread_of_writable hwritable, Token.ofWord_of_notMem_writable h.unreserved]
    at hspells
  -- The reader gets to the name as it would get through the tree, and takes it for a variable.
  obtain ⟨inner, last, hwhole, -⟩ :=
    Reader.follows_of_derives (derives_tokens e).1 [] .start (by simp [Reader.Below]) trivial
  rw [← hafter, List.append_assoc] at hwhole
  obtain ⟨frames, hrun⟩ := Reader.exists_run_of_run_function hwhole f.name
  have hname : parenthesisCause (front ++ f.name) = parenthesisCause front := by
    have hopening : f.name.toList.count '(' = 0 := by cases f <;> decide +kernel
    have hclosing : f.name.toList.count ')' = 0 := by cases f <;> decide +kernel
    simp [parenthesisCause, hopening, hclosing]
  rw [parse_eq_error_of_opening hspells hrun h.call.isPrefix, hname]

end Expr

/-! ## The functions of a formula -/

/-- A function is undone by one that is not reserved if it is reserved itself. -/
theorem Fn.mem_writable_of_inverse?_iff {f g : Fn} (h : f.inverse? = some g) :
    g ∈ writable ↔ f ∉ [sin, cos, tan, log] := by
  cases f <;> cases h <;> decide

namespace Expr

theorem callsReserved_binary_iff {op : BinaryOp} {left right : Expr} :
    (binary op left right).CallsReserved ↔ left.CallsReserved ∧ right.CallsReserved :=
  List.forall_mem_append

theorem callsReserved_call_iff {f : Fn} {argument : Expr} :
    (call f argument).CallsReserved ↔ f ∈ Fn.writable ∧ argument.CallsReserved :=
  List.forall_mem_cons

end Expr

namespace Layer

/-- Only reserved functions are called in the other operand. -/
def CallsReserved : Layer → Prop
  | negation | call _ => True
  | leftOf _ right => right.CallsReserved
  | rightOf left _ => left.CallsReserved

theorem callsReserved_of_plugAll {layers : List Layer} {e : Expr}
    (h : (plugAll layers e).CallsReserved) : ∀ layer ∈ layers, layer.CallsReserved := by
  induction layers with
  | nil => simp
  | cons layer layers ih =>
    have hlayer : (layer.plug (plugAll layers e)).CallsReserved := h
    rw [List.forall_mem_cons]
    cases layer with
    | negation => exact ⟨trivial, ih hlayer⟩
    | call f => exact ⟨trivial, ih (Expr.callsReserved_call_iff.mp hlayer).2⟩
    | leftOf op right =>
      obtain ⟨hinner, hother⟩ := Expr.callsReserved_binary_iff.mp hlayer
      exact ⟨hother, ih hinner⟩
    | rightOf left op =>
      obtain ⟨hother, hinner⟩ := Expr.callsReserved_binary_iff.mp hlayer
      exact ⟨hother, ih hinner⟩

theorem callsReserved_undo_iff {layer : Layer} {known next : Expr} (h : layer.undo known = .ok next)
    (hlayer : layer.CallsReserved) :
    next.CallsReserved ↔
      (∀ f, layer = call f → f ∉ [.sin, .cos, .tan, .log]) ∧ known.CallsReserved := by
  cases layer with
  | negation =>
    obtain rfl := Except.ok.inj h
    simp [Expr.CallsReserved, Expr.functions]
  | call f =>
    obtain ⟨g, hinverse, rfl⟩ := undo_call_eq_ok_iff.mp h
    rw [Expr.callsReserved_call_iff, Fn.mem_writable_of_inverse?_iff hinverse]
    simp
  | leftOf op right =>
    obtain rfl := Except.ok.inj h
    have hright : right.CallsReserved := hlayer
    cases op with
    | plus | minus | times | divide => simp [solveLeft, Expr.callsReserved_binary_iff, hright]
    | power =>
      have hone : (Expr.number "1").CallsReserved := List.forall_mem_nil _
      simp [solveLeft, Expr.callsReserved_binary_iff, hright, hone]
  | rightOf left op =>
    obtain rfl := Except.ok.inj h
    have hleft : left.CallsReserved := hlayer
    cases op with
    | plus | minus | times | divide => simp [solveRight, Expr.callsReserved_binary_iff, hleft]
    | power =>
      have hlog : Fn.log ∈ Fn.writable := by decide
      simp [solveRight, Expr.callsReserved_binary_iff, Expr.callsReserved_call_iff, hleft, hlog]

/-- What is made out of reserved functions by undoing layers has no others unless a layer is a call
that only they undo. -/
theorem callsReserved_undoAll_iff {layers : List Layer} {known formula : Expr}
    (h : undoAll layers known = .ok formula) (hlayers : ∀ layer ∈ layers, layer.CallsReserved) :
    formula.CallsReserved ↔
      (∀ f, call f ∈ layers → f ∉ [.sin, .cos, .tan, .log]) ∧ known.CallsReserved := by
  induction layers generalizing known with
  | nil =>
    obtain rfl := Except.ok.inj h
    simp
  | cons layer layers ih =>
    obtain ⟨next, hnext, hundo⟩ := undoAll_cons_eq_ok_iff.mp h
    rw [List.forall_mem_cons] at hlayers
    rw [ih hundo hlayers.2, callsReserved_undo_iff hnext hlayers.1]
    simp only [List.mem_cons, or_imp, forall_and, eq_comm (a := layer)]
    tauto

end Layer

namespace Expr

theorem hasWritableLeaves_iff_atoms {e : Expr} :
    e.HasWritableLeaves ↔ ∀ atom ∈ e.atoms, atom.HasWritableLeaves := by
  induction e with
  | number text | var name => simp [atoms]
  | unary op operand ih => exact ih
  | binary op left right ihl ihr =>
    simp only [HasWritableLeaves, atoms, Multiset.mem_add, or_imp, forall_and, ihl, ihr]

end Expr

/-- Nodes without calls that are undone by functions that are not reserved. -/
def NoInvertibleCall (nodes : List Expr) : Prop :=
  ∀ f argument, .call f argument ∈ nodes → f ∉ [.sin, .cos, .tan, .log]

namespace Equation

variable {left right formula : Expr} {name : String}

/-- The leaves of a formula are leaves of the equation, or ones. -/
theorem hasWritableLeaves_of_rearrange
    (h : (equality left right).rearrange (.whole name) = .ok formula)
    (hleft : left.HasWritableLeaves) (hright : right.HasWritableLeaves) :
    (Expr.var name).HasWritableLeaves ∧ formula.HasWritableLeaves := by
  have hone : (Expr.number "1").HasWritableLeaves :=
    IsNumeral.plain (d := '1') (by decide) (List.forall_mem_nil _)
  obtain ⟨nodes, hpath⟩ := exists_path_of_rearrange h
  have hatoms := atoms_rearrange h hpath
  have hall : ∀ atom ∈ (Expr.var name).atoms + formula.atoms, atom.HasWritableLeaves := by
    intro atom hmem
    rw [hatoms, Multiset.mem_add, Multiset.mem_add] at hmem
    rcases hmem with (hmem | hmem) | hmem
    · exact Expr.hasWritableLeaves_iff_atoms.mp hleft atom hmem
    · exact Expr.hasWritableLeaves_iff_atoms.mp hright atom hmem
    · rw [Multiset.eq_of_mem_replicate hmem]
      exact hone
  simp only [Multiset.mem_add, or_imp, forall_and] at hall
  exact ⟨Expr.hasWritableLeaves_iff_atoms.mpr hall.1, Expr.hasWritableLeaves_iff_atoms.mpr hall.2⟩

/-- A formula calls reserved functions only, unless a call on the path to the variable is undone by
another. -/
theorem callsReserved_iff_of_rearrange
    (h : (equality left right).rearrange (.whole name) = .ok formula)
    (hleft : left.CallsReserved) (hright : right.CallsReserved) {nodes : List Expr}
    (hpath : (equality left right).Path name nodes) :
    formula.CallsReserved ↔ NoInvertibleCall nodes := by
  obtain ⟨a, harrange, hundo⟩ := rearrange_eq_ok_iff.mp h
  have hnodes := (path_iff_of_arrange harrange).mp hpath
  have hcalls : (∀ f, Layer.call f ∈ a.layers → f ∉ [.sin, .cos, .tan, .log]) ↔
      NoInvertibleCall nodes := by
    simp only [NoInvertibleCall, hnodes, ← @Layer.call_mem_nodes_iff name, forall_exists_index]
  have hside {side : Expr} (hplace : side.places name = [a.layers]) (hside : side.CallsReserved) :
      ∀ layer ∈ a.layers, layer.CallsReserved := by
    rw [← Expr.plugAll_of_places hplace] at hside
    exact Layer.callsReserved_of_plugAll hside
  rw [← hcalls]
  obtain ⟨-, ⟨hplace, -, hknown⟩ | ⟨-, hplace, hknown⟩⟩ := arrange_whole_eq_ok_iff.mp harrange
  · rw [Layer.callsReserved_undoAll_iff hundo (hside hplace hleft), hknown, and_iff_left hright]
  · rw [Layer.callsReserved_undoAll_iff hundo (hside hplace hright), hknown, and_iff_left hleft]

end Equation

/-! ## Reading back -/

/-- The text of a tree is read as something only if it is read as the tree. -/
theorem Expr.exists_parse_render_iff {e : Expr} (he : e.HasWritableLeaves) :
    ((∃ other, Expr.parse e.render = .ok other) ↔ e.CallsReserved) ∧
      (Expr.parse e.render = .ok e ↔ e.CallsReserved) := by
  have hreserved (h : e.CallsReserved) : Expr.parse e.render = .ok e :=
    parse_render (isWritable_iff.mpr ⟨he, h⟩)
  have hcalls {other : Expr} (hother : Expr.parse e.render = .ok other) : e.CallsReserved := by
    by_contra h
    obtain ⟨front, f, hfirst⟩ := exists_isFirstUnreserved h
    rw [parse_render_of_isFirstUnreserved he hfirst] at hother
    cases hother
  exact ⟨⟨fun ⟨other, hother⟩ ↦ hcalls hother, fun h ↦ ⟨e, hreserved h⟩⟩, hcalls, hreserved⟩

namespace Equation

variable {q : Equation} {name : String} {formula : Expr}

/-- The formula for a variable of an equation that has been read is read back, and so is the
equation it makes with the variable, if no call on the path to the variable has been undone. -/
theorem parse_render_formula_iff (hq : q.IsWritable)
    (h : q.rearrange (.whole name) = .ok formula) :
    ∃ nodes, (∀ other, q.Path name other ↔ other = nodes) ∧
      ((∃ e, Expr.parse formula.render = .ok e) ↔ NoInvertibleCall nodes) ∧
      (Expr.parse formula.render = .ok formula ↔ NoInvertibleCall nodes) ∧
      (NoInvertibleCall nodes →
        Equation.parse (equality (.var name) formula).render =
          .ok (equality (.var name) formula)) := by
  cases q with
  | expression e =>
    obtain ⟨a, harrange, -⟩ := rearrange_eq_ok_iff.mp h
    cases harrange
  | equality left right =>
    obtain ⟨a, harrange, -⟩ := rearrange_eq_ok_iff.mp h
    have hpath (other : List Expr) := @path_iff_of_arrange name _ a harrange other
    obtain ⟨hleft, hleftCalls⟩ := Expr.isWritable_iff.mp (hq left List.mem_cons_self)
    obtain ⟨hright, hrightCalls⟩ :=
      Expr.isWritable_iff.mp (hq right (List.mem_cons_of_mem _ List.mem_cons_self))
    obtain ⟨hname, hformula⟩ := hasWritableLeaves_of_rearrange h hleft hright
    have hcalls := callsReserved_iff_of_rearrange h hleftCalls hrightCalls ((hpath _).mpr rfl)
    obtain ⟨hread, hreadBack⟩ := Expr.exists_parse_render_iff hformula
    rw [hcalls] at hread hreadBack
    refine ⟨_, hpath, hread, hreadBack, fun hnone ↦ parse_render ?_⟩
    intro e he
    rcases List.mem_cons.mp he with rfl | he
    · exact hname
    · obtain rfl := List.mem_singleton.mp he
      exact Expr.isWritable_iff.mpr ⟨hformula, hcalls.mpr hnone⟩

end Equation

/-- A tree is read back from its text unless a function is called that is not reserved; the text is
refused behind the name of the first. So the formula in a relation is read back exactly if no sine,
cosine, tangent or logarithm stood on the path to its variable. -/
theorem parse_formula_iff :
    (∀ e : Expr, e.HasWritableLeaves →
      (e.CallsReserved → Expr.parse e.render = .ok e) ∧
      (¬e.CallsReserved → ∃ front f, e.IsFirstUnreserved front f ∧
        (front ++ f.name ++ "(").toList <+: e.render.toList ∧
        Expr.parse e.render =
          .error ⟨e.render, parenthesisCause front, byteSize (front ++ f.name).toList⟩)) ∧
    ∀ text rs, solve text = .ok rs → ∀ r ∈ rs.toList, ∃ q formula nodes,
      Equation.parse text = .ok q ∧ q.rearrange (.whole r.subject) = .ok formula ∧
      r.formula = formula.render ∧ (∀ other, q.Path r.subject other ↔ other = nodes) ∧
      ((∃ e, Expr.parse r.formula = .ok e) ↔ NoInvertibleCall nodes) ∧
      (Expr.parse r.formula = .ok formula ↔ NoInvertibleCall nodes) ∧
      (NoInvertibleCall nodes →
        Equation.parse r.render = .ok (.equality (.var r.subject) formula)) := by
  constructor
  · intro e he
    refine ⟨fun h ↦ Expr.parse_render (Expr.isWritable_iff.mpr ⟨he, h⟩), fun h ↦ ?_⟩
    obtain ⟨front, f, hfirst⟩ := Expr.exists_isFirstUnreserved h
    exact ⟨front, f, hfirst, hfirst.call.isPrefix, Expr.parse_render_of_isFirstUnreserved he hfirst⟩
  · intro text rs hsolve r hr
    obtain ⟨q, hparse, rfl⟩ := solve_eq_ok_iff.mp hsolve
    obtain ⟨-, formula, hformula, hrender⟩ := q.mem_relations_iff.mp hr
    obtain ⟨nodes, hpath, hread, hreadBack, hequation⟩ :=
      Equation.parse_render_formula_iff (Equation.isWritable_of_parse hparse) hformula
    rw [← hrender] at hread hreadBack
    have hrelation : r.render = (Equation.equality (.var r.subject) formula).render := by
      rw [Relation.render, hrender]
      rfl
    rw [← hrelation] at hequation
    exact ⟨q, formula, nodes, hparse, hformula, hrender, hpath, hread, hreadBack, hequation⟩

/-- The text of `x + sin(-acos(y))` is refused in the argument of the sine. Of the relations for
`a = 2 * log(b)^c`, the one for `c` is read back; the logarithm that is undone for `b` is not on the
path to `c`. -/
theorem parse_formula_iff_of_logarithm :
    let e := Expr.add (.var "x") (.call .sin (.neg (.call .acos (.var "y"))))
    let text := "a = 2 * log(b)^c"
    e.HasWritableLeaves ∧ ¬e.CallsReserved ∧
      (∃ front f, e.IsFirstUnreserved front f ∧
        (front ++ f.name ++ "(").toList <+: "x + sin(-acos(y))".toList ∧
        Expr.parse "x + sin(-acos(y))" =
          .error ⟨"x + sin(-acos(y))", parenthesisCause front,
            byteSize (front ++ f.name).toList⟩) ∧
      Expr.parse "x + sin(-acos(y))" =
        .error ⟨"x + sin(-acos(y))", .missingRightParenthesis, 13⟩ ∧
      ∃ rs, solve text = .ok rs ∧
        ⟨"b", "exp((a / 2)^(1 / c))"⟩ ∈ rs.toList ∧
        (¬∃ e, Expr.parse "exp((a / 2)^(1 / c))" = .ok e) ∧
        ⟨"c", "log(a / 2) / log(log(b))"⟩ ∈ rs.toList ∧
        ∃ formula, Expr.parse "log(a / 2) / log(log(b))" = .ok formula ∧
          Equation.parse "c = log(a / 2) / log(log(b))" = .ok (.equality (.var "c") formula) := by
  intro e text
  have hname (name : String) (h : Expr.parse name = .ok (.var name)) :
      (Expr.var name).HasWritableLeaves := (Expr.isWritable_of_parse h).hasWritableLeaves
  have he : e.HasWritableLeaves := ⟨hname "x" (by decide +kernel), hname "y" (by decide +kernel)⟩
  have hcalls : ¬e.CallsReserved := fun h ↦ absurd (h .acos (by decide)) (by decide)
  have hrender : e.render = "x + sin(-acos(y))" := by decide +kernel
  obtain ⟨htrees, htexts⟩ := parse_formula_iff
  have hfirst := (htrees e he).2 hcalls
  rw [hrender] at hfirst
  let logarithm := Expr.call .log (.var "b")
  let power := Expr.pow logarithm (.var "c")
  let product := Expr.mul (.number "2") power
  let q := Equation.equality (.var "a") product
  have hparse : Equation.parse text = .ok q := by decide +kernel
  have hsolve : solve text = .ok q.relations := solve_eq_ok_iff.mpr ⟨q, hparse, rfl⟩
  have hb : ⟨"b", "exp((a / 2)^(1 / c))"⟩ ∈ q.relations.toList := by decide +kernel
  have hc : ⟨"c", "log(a / 2) / log(log(b))"⟩ ∈ q.relations.toList := by decide +kernel
  have hpathB : q.Path "b" [product, power, logarithm, .var "b"] :=
    Equation.path_equality_iff.mpr (.inr (.right _ _ (.left _ _ (.unary _ .leaf))))
  have hpathC : q.Path "c" [product, power, .var "c"] :=
    Equation.path_equality_iff.mpr (.inr (.right _ _ (.right _ _ .leaf)))
  have hread : ¬∃ e, Expr.parse "exp((a / 2)^(1 / c))" = .ok e := by
    obtain ⟨q', formula, nodes, hq, -, -, hpath, hread, -⟩ := htexts text _ hsolve _ hb
    obtain rfl := Except.ok.inj (hparse.symm.trans hq)
    obtain rfl := (hpath _).mp hpathB
    exact fun h ↦ absurd (hread.mp h .log (.var "b") (by simp [logarithm])) (by decide)
  obtain ⟨q', formula, nodes, hq, -, -, hpath, -, hreadBack, hequation⟩ := htexts text _ hsolve _ hc
  obtain rfl := Except.ok.inj (hparse.symm.trans hq)
  obtain rfl := (hpath _).mp hpathC
  have hnone : NoInvertibleCall [product, power, .var "c"] := by
    intro f argument hmem
    simp [product, power] at hmem
  exact ⟨he, hcalls, hfirst, by decide +kernel, q.relations, hsolve, hb, hread, hc, formula,
    hreadBack.mpr hnone, hequation hnone⟩

end ClosedForm
