import ClosedForm.Proofs.MalformedNumber

/-!
# Texts with a common front

The tokens at the front of a text stay what they are when the text behind them is replaced, as long
as no word runs on: the other text starts with the same character or with none that continues a
word (`exists_front`).
-/

namespace ClosedForm

open Text (byteSize isBlank)

/-- The text may stand behind a token in the place of another. -/
def Replaces (other rest : List Char) : Prop :=
  ∀ c ∈ other.head?, rest.head? = some c ∨ isNameChar c = false

theorem replaces_nil (rest : List Char) : Replaces [] rest := by
  intro c hc
  cases hc

theorem Replaces.endsWord {front other rest : List Char} (h : Replaces other rest)
    (hend : EndsWord (front ++ rest)) : EndsWord (front ++ other) := by
  cases front with
  | nil =>
    intro c hc
    rcases h c hc with hsame | hname
    · exact hend c hsame
    · exact hname
  | cons x front => exact hend

/-- The front of a text with given tokens, and what is read when the text behind it is replaced. -/
theorem exists_front {start : Nat} {cs : List Char} {read rest : List Lexeme}
    (h : lexemesFrom start cs = read ++ rest) (hread : ∀ l ∈ read, l.token.isFault = false) :
    ∃ front behind, cs = front ++ behind ∧
      rest = lexemesFrom (start + byteSize front) behind ∧
      (∀ c ∈ behind.head?, isBlank c = false) ∧
      ∀ other, Replaces other behind →
        lexemesFrom start (front ++ other) =
          read ++ lexemesFrom (start + byteSize front) other := by
  fun_induction lexemesFrom start cs generalizing read with
  | case1 start =>
    obtain ⟨rfl, rfl⟩ := List.append_eq_nil_iff.mp h.symm
    exact ⟨[], [], rfl, by simp [lexemesFrom], by simp, by simp⟩
  | case2 start c cs hblank ih =>
    obtain ⟨front, behind, rfl, hrest, hhead, hother⟩ := ih h hread
    have hstart : start + byteSize (c :: front) = start + c.utf8Size + byteSize front := by
      rw [Text.byteSize_cons, Nat.add_assoc]
    refine ⟨c :: front, behind, rfl, by rw [hstart, hrest], hhead, fun other hreplaces ↦ ?_⟩
    rw [hstart, List.cons_append, lexemesFrom_of_isBlank hblank, hother other hreplaces]
  | case3 start c cs hblank result =>
    rename_i ih
    cases read with
    | nil =>
      refine ⟨[], c :: cs, rfl, ?_, by simpa using hblank, by simp⟩
      rw [lexemesFrom, if_neg hblank]
      exact h.symm
    | cons l read =>
      obtain ⟨rfl, hbehind⟩ := List.cons.inj h
      rw [List.forall_mem_cons] at hread
      obtain ⟨front, behind, hresult, hrest, hhead, hother⟩ := ih hbehind hread.2
      obtain ⟨hwell, hend⟩ := Token.readsWell_scan c cs hread.1
      obtain ⟨d, more, htext, -⟩ := hwell.exists_text
      have hcs : result.1.text.toList ++ (front ++ behind) = c :: cs := by
        rw [← hresult]
        exact Token.text_scan_append c cs
      obtain rfl : d = c := by
        rw [htext] at hcs
        exact (List.cons.inj hcs).1
      have hstart : start + byteSize (result.1.text.toList ++ front) =
          start + byteSize result.1.text.toList + byteSize front := by
        rw [Text.byteSize_append, Nat.add_assoc]
      refine ⟨result.1.text.toList ++ front, behind, ?_, by rw [hstart, hrest], hhead,
        fun other hreplaces ↦ ?_⟩
      · rw [← hcs, List.append_assoc]
      · have hend' : result.1.isWord = true → EndsWord (front ++ other) := by
          intro hword
          have hbehind := hend hword
          rw [hresult] at hbehind
          exact hreplaces.endsWord hbehind
        -- The token is found again although the text behind it is another one.
        have hscan := Token.scan_of_isWellFormed hwell htext hend'
        have hnonblank : isBlank d = false := by simpa using hblank
        rw [hstart, List.append_assoc, htext, List.cons_append,
          lexemesFrom_of_scan hnonblank hscan, hother other hreplaces, htext]
        rfl

/-- The front of a text with given tokens, and the token that is read behind it. -/
theorem exists_front_of_cons {start : Nat} {cs : List Char} {read rest : List Lexeme} {l : Lexeme}
    (h : lexemesFrom start cs = read ++ l :: rest) (hread : ∀ l ∈ read, l.token.isFault = false) :
    ∃ front c behind place, cs = front ++ c :: behind ∧ (Token.scan c behind).1 = l.token ∧
      rest = lexemesFrom place (Token.scan c behind).2 ∧ lexemesFrom start front = read := by
  obtain ⟨front, behind, hcs, hrest, hhead, hother⟩ := exists_front h hread
  have hfront : lexemesFrom start front = read := by
    simpa [lexemesFrom] using hother [] (replaces_nil behind)
  cases behind with
  | nil =>
    rw [lexemesFrom] at hrest
    cases hrest
  | cons c behind =>
    rw [lexemesFrom_cons (hhead c rfl)] at hrest
    obtain ⟨rfl, hbehind⟩ := List.cons.inj hrest
    exact ⟨front, c, behind, _, hcs, rfl, hbehind, hfront⟩

/-- A text whose tokens are all well-formed is read as it is in front of any text that does not
continue its last word. -/
theorem lexemesFrom_append {start : Nat} {cs rest : List Char}
    (hcs : ∀ l ∈ lexemesFrom start cs, l.token.isFault = false) (hrest : EndsWord rest) :
    lexemesFrom start (cs ++ rest) =
      lexemesFrom start cs ++ lexemesFrom (start + byteSize cs) rest := by
  have hall : lexemesFrom start cs = lexemesFrom start cs ++ [] := (List.append_nil _).symm
  obtain ⟨front, behind, hsplit, hnone, hhead, hother⟩ := exists_front hall hcs
  obtain rfl : behind = [] := by
    cases behind with
    | nil => rfl
    | cons c more =>
      rw [lexemesFrom_cons (hhead c rfl)] at hnone
      cases hnone
  rw [List.append_nil] at hsplit
  subst hsplit
  exact hother rest fun c hc ↦ .inr (hrest c hc)

end ClosedForm
