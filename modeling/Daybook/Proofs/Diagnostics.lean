/-
  Daybook/Proofs/Diagnostics.lean
  ===============================
  **What a collector keeps.**  The messages seen are those of the findings kept,
  each once (`Kept`), so that the messages which were news, counted over everything
  that was added, are the different messages.  What is read off a collector depends
  on the findings and not on their order, and a report is the same text for all
  orders of arrival.
-/
import Daybook.Proofs.Diagnostic.Order
import Daybook.Report
import Mathlib.Data.Finset.Card

namespace Daybook

/-- A log with one entry more is cut at that entry or at one before it. -/
theorem cut_concat {α : Type} {log earlier later : List α} {last event : α}
    (h : log ++ [last] = earlier ++ event :: later) :
    (log = earlier ∧ last = event) ∨ ∃ rest, log = earlier ++ event :: rest := by
  rcases List.eq_nil_or_concat later with rfl | ⟨rest, final, rfl⟩
  · obtain ⟨hlog, hlast⟩ := List.append_inj' h rfl
    exact .inl ⟨hlog, List.singleton_inj.mp hlast⟩
  · rw [List.concat_eq_append, ← List.cons_append, ← List.append_assoc] at h
    exact .inr ⟨rest, (List.append_inj' h rfl).1⟩

namespace Diagnostics

@[simp] theorem entries_fresh : fresh.entries = [] := rfl

@[simp] theorem entries_quiet : quiet.entries = [] := rfl

/-! ### Findings added -/

theorem emitAll_append (c : Diagnostics) (ds es : List Diagnostic) :
    (c.emitAll (ds ++ es)).1 = ((c.emitAll ds).1.emitAll es).1 := by
  induction ds generalizing c with
  | nil => rfl
  | cons d rest ih => exact ih (c.emit d).1

@[simp] theorem size_emitAll (c : Diagnostics) (ds : List Diagnostic) :
    (c.emitAll ds).1.size = c.size + ds.length := by
  simp [size]

/-- Looking back to where a collector stood finds what it has gained since. -/
theorem since_emitAll (c : Diagnostics) (ds : List Diagnostic) :
    (c.emitAll ds).1.since c.size = Diagnostic.sort ds := by
  unfold since size
  rw [entries_emitAll, List.drop_left]

/-! ### Messages seen -/

/-- The messages seen are those of the findings, each of them once. -/
structure Kept (c : Diagnostics) : Prop where
  nodup : c.seen.Nodup
  mem_seen : ∀ message, message ∈ c.seen ↔ message ∈ c.entries.map Diagnostic.message

theorem kept_fresh : fresh.Kept where
  nodup := List.nodup_nil
  mem_seen := by
    intro message
    rfl

theorem seen_emit (c : Diagnostics) (d : Diagnostic) :
    (c.emit d).1.seen = if d.message ∈ c.seen then c.seen else d.message :: c.seen := by
  by_cases h : d.message ∈ c.seen
  · simp [emit, isNews, h]
  · simp [emit, isNews, h]

theorem news_emit (c : Diagnostics) (d : Diagnostic) :
    c.seen.length + (if (c.emit d).2 then 1 else 0) = (c.emit d).1.seen.length := by
  rw [seen_emit]
  by_cases h : d.message ∈ c.seen
  · simp [emit, isNews, h]
  · simp [emit, isNews, h]

theorem Kept.emit {c : Diagnostics} (h : c.Kept) (d : Diagnostic) : (c.emit d).1.Kept := by
  constructor
  · rw [seen_emit]
    split
    next => exact h.nodup
    next hnew => exact List.nodup_cons.mpr ⟨hnew, h.nodup⟩
  · intro message
    have hold := h.mem_seen message
    rw [seen_emit, entries_emit, List.map_append, List.mem_append, ← hold]
    split
    next hseen =>
      constructor
      · exact Or.inl
      · rintro (hmem | hmem)
        · exact hmem
        · obtain rfl : message = d.message := by simpa using hmem
          exact hseen
    next => simp [or_comm]

theorem Kept.emitAll {c : Diagnostics} (h : c.Kept) (ds : List Diagnostic) :
    (c.emitAll ds).1.Kept := by
  induction ds generalizing c with
  | nil => exact h
  | cons d rest ih => exact ih (h.emit d)

theorem news_emitAll (c : Diagnostics) (ds : List Diagnostic) :
    c.seen.length + (c.emitAll ds).2 = (c.emitAll ds).1.seen.length := by
  induction ds generalizing c with
  | nil => rfl
  | cons d rest ih =>
    have hfirst := c.news_emit d
    have hrest := ih (c.emit d).1
    simp only [Diagnostics.emitAll]
    omega

/-- **As many messages are seen as there are different ones.** -/
theorem Kept.length_seen {c : Diagnostics} (h : c.Kept) :
    c.seen.length = (c.entries.map Diagnostic.message).toFinset.card := by
  have hsame : c.seen.toFinset = (c.entries.map Diagnostic.message).toFinset := by
    ext message
    rw [List.mem_toFinset, List.mem_toFinset]
    exact h.mem_seen message
  rw [← hsame, List.toFinset_card_of_nodup h.nodup]

/-! ### Order of arrival -/

variable {c other : Diagnostics}

theorem sorted_congr (h : c.entries.Perm other.entries) : c.sorted = other.sorted :=
  Diagnostic.sort_congr h

theorem grouped_congr (h : c.entries.Perm other.entries) : c.grouped = other.grouped := by
  unfold grouped withCode
  rw [sorted_congr h]

end Diagnostics

/-- **A report does not depend on the order in which the findings came.** -/
theorem Report.render_congr {c other : Diagnostics} (h : c.entries.Perm other.entries) :
    render c = render other := by
  unfold render
  rw [Diagnostics.grouped_congr h]

end Daybook
