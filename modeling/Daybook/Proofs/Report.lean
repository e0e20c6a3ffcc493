/-
  Daybook/Proofs/Report.lean
  ==========================
  **A report tells every finding, once and in its place.**  The sections of a
  report are the codes that occur, in code order; the section of a code has its
  findings in order, each as often as it was found, and its heading says how many
  there are (`IsSectioned`).  The text says that there are no findings just when
  there are none, and it is the same for all orders in which they came
  (`render_canonical`).
-/
import Daybook.Proofs.Diagnostics
import Daybook.Proofs.Mapping
import Mathlib.Algebra.Ring.Nat

namespace Daybook

/-! ### Findings by code -/

theorem Code.pairwise_all : Code.all.Pairwise fun a b => compare a b = .lt := by decide

theorem Code.nodup_all : Code.all.Nodup := by decide

namespace Diagnostics

variable (c : Diagnostics)

theorem withCode_eq (code : Code) :
    c.withCode code = Diagnostic.sort (c.entries.filter fun d => d.code == code) :=
  Diagnostic.filter_sort _ _

theorem perm_withCode (code : Code) :
    (c.withCode code).Perm (c.entries.filter fun d => d.code == code) := by
  rw [withCode_eq]
  exact Diagnostic.perm_sort _

theorem length_withCode (code : Code) : (c.withCode code).length = c.count code := by
  rw [(c.perm_withCode code).length_eq, count, List.countP_eq_length_filter]

theorem mem_grouped {group : Code × List Diagnostic} :
    group ∈ c.grouped ↔ group.2 = c.withCode group.1 ∧ group.2 ≠ [] := by
  unfold grouped
  rw [List.mem_filter, List.mem_map, Bool.not_eq_true', List.isEmpty_eq_false_iff]
  apply and_congr_left
  intro _
  constructor
  · rintro ⟨code, -, rfl⟩
    rfl
  · intro hgroup
    exact ⟨group.1, group.1.mem_all, Prod.ext rfl hgroup.symm⟩

theorem mem_map_fst_grouped {code : Code} :
    code ∈ c.grouped.map Prod.fst ↔ ∃ d ∈ c.entries, d.code = code := by
  constructor
  · intro hcode
    obtain ⟨group, hgroup, rfl⟩ := List.mem_map.mp hcode
    obtain ⟨hfindings, hne⟩ := c.mem_grouped.mp hgroup
    obtain ⟨d, hd⟩ := List.exists_mem_of_ne_nil _ hne
    rw [hfindings, (c.perm_withCode group.1).mem_iff, List.mem_filter, beq_iff_eq] at hd
    exact ⟨d, hd⟩
  · rintro ⟨d, hd, rfl⟩
    have hmem : d ∈ c.withCode d.code := by
      rw [(c.perm_withCode d.code).mem_iff, List.mem_filter]
      exact ⟨hd, beq_self_eq_true d.code⟩
    exact List.mem_map.mpr ⟨(d.code, c.withCode d.code),
      c.mem_grouped.mpr ⟨rfl, List.ne_nil_of_mem hmem⟩, rfl⟩

theorem pairwise_grouped : c.grouped.Pairwise fun a b => compare a.1 b.1 = .lt := by
  apply List.Pairwise.filter
  rw [List.pairwise_map]
  exact Code.pairwise_all

theorem flatMap_filter_not_isEmpty (groups : List (Code × List Diagnostic)) :
    (groups.filter fun group => !group.2.isEmpty).flatMap Prod.snd = groups.flatMap Prod.snd := by
  induction groups with
  | nil => rfl
  | cons group rest ih =>
    obtain ⟨code, findings⟩ := group
    cases findings with
    | nil => exact ih
    | cons d others =>
      rw [List.filter_cons_of_pos rfl, List.flatMap_cons, List.flatMap_cons, ih]

/-- **The groups divide the findings**: none is lost, and none stands in two of them. -/
theorem perm_flatMap_grouped : (c.grouped.flatMap Prod.snd).Perm c.entries := by
  have hall : c.grouped.flatMap Prod.snd = Code.all.flatMap c.withCode := by
    unfold grouped
    rw [flatMap_filter_not_isEmpty, List.flatMap_map]
  rw [hall]
  refine (List.Perm.flatMap_left _ fun code _ => c.perm_withCode code).trans ?_
  exact perm_flatMap_filter Diagnostic.code Code.nodup_all fun d _ => d.code.mem_all

end Diagnostics

namespace Report

/-! ### Sections -/

/-- Whether sections tell all findings of a collector, those of each code under that code. -/
structure IsSectioned (c : Diagnostics) (sections : List (Code × List Diagnostic)) : Prop where
  inCodeOrder : sections.Pairwise fun a b => compare a.1 b.1 = .lt
  occurs : ∀ code, code ∈ sections.map Prod.fst ↔ ∃ d ∈ c.entries, d.code = code
  findings : ∀ part ∈ sections, part.2.Perm (c.entries.filter fun d => d.code == part.1)
  sorted : ∀ part ∈ sections, part.2.Pairwise fun a b => (compare a b).isLE = true
  counted : ∀ part ∈ sections, part.2.length = c.count part.1
  total : (sections.map fun part => c.count part.1).sum = c.size

theorem isSectioned_grouped (c : Diagnostics) : IsSectioned c c.grouped where
  inCodeOrder := c.pairwise_grouped
  occurs := fun _ => c.mem_map_fst_grouped
  findings := by
    intro part hpart
    rw [(c.mem_grouped.mp hpart).1]
    exact c.perm_withCode part.1
  sorted := by
    intro part hpart
    rw [(c.mem_grouped.mp hpart).1, c.withCode_eq]
    exact Diagnostic.pairwise_sort _
  counted := by
    intro part hpart
    rw [(c.mem_grouped.mp hpart).1]
    exact c.length_withCode part.1
  total := by
    have hlength : ∀ part ∈ c.grouped, c.count part.1 = part.2.length := by
      intro part hpart
      rw [(c.mem_grouped.mp hpart).1, c.length_withCode]
    rw [List.map_congr_left hlength, ← List.length_flatMap]
    exact c.perm_flatMap_grouped.length_eq

theorem grouped_eq_nil_iff (c : Diagnostics) : c.grouped = [] ↔ c.entries = [] := by
  constructor
  · intro hnone
    have hperm := c.perm_flatMap_grouped
    rw [hnone] at hperm
    exact hperm.nil_eq.symm
  · intro hnone
    apply List.map_eq_nil_iff.mp
    apply List.eq_nil_iff_forall_not_mem.mpr
    intro code hcode
    obtain ⟨d, hd, -⟩ := c.mem_map_fst_grouped.mp hcode
    rw [hnone] at hd
    cases hd

/-! ### The text -/

theorem render_of_ne_nil {c : Diagnostics} (h : c.entries ≠ []) :
    render c = "\n".intercalate (c.grouped.map fun part => codeSection part.1 part.2) := by
  unfold render
  split
  next hnone => exact absurd ((grouped_eq_nil_iff c).mp hnone) h
  next => rfl

theorem head?_codeSection (code : Code) (findings : List Diagnostic) :
    (codeSection code findings).toList.head? = some '[' := by
  simp only [codeSection, String.toList_append]
  rfl

theorem head?_render {c : Diagnostics} (h : c.entries ≠ []) :
    (render c).toList.head? = some '[' := by
  rw [render_of_ne_nil h]
  cases hgroups : c.grouped with
  | nil => exact absurd ((grouped_eq_nil_iff c).mp hgroups) h
  | cons part rest =>
    have hhead := head?_codeSection part.1 part.2
    rw [List.map_cons]
    cases rest with
    | nil => rw [List.map_nil, String.intercalate_singleton, hhead]
    | cons other others =>
      rw [String.intercalate_cons_of_ne_nil (by simp), String.toList_append, String.toList_append,
        List.append_assoc, List.head?_append, hhead, Option.some_or]

theorem render_eq_iff (c : Diagnostics) : render c = "No diagnostics.\n" ↔ c.isEmpty = true := by
  unfold Diagnostics.isEmpty
  rw [List.isEmpty_iff]
  constructor
  · intro htext
    by_contra hne
    have hhead := head?_render hne
    rw [htext] at hhead
    exact absurd hhead (by decide)
  · intro hnone
    unfold render
    rw [(grouped_eq_nil_iff c).mpr hnone]

/-- **A report is canonical.**  It says that there are no findings just when there are none.  Else
    it is one section for each code that occurs, with an empty line between sections: the heading
    with the number of the findings that have the code, and under it these findings.  Collectors
    with the same findings have the same report. -/
theorem render_canonical (c : Diagnostics) :
    (render c = "No diagnostics.\n" ↔ c.isEmpty = true) ∧
      (c.isEmpty = false → ∃ sections, IsSectioned c sections ∧
        render c = "\n".intercalate (sections.map fun part =>
          s!"[{part.1.name}] {part.1.title} ({c.count part.1})\n" ++
            String.join (part.2.map fun d => entry d ++ "\n"))) ∧
      ∀ other : Diagnostics, c.entries.Perm other.entries → render other = render c := by
  refine ⟨render_eq_iff c, ?_, ?_⟩
  · intro hsome
    have hsectioned := isSectioned_grouped c
    refine ⟨c.grouped, hsectioned, ?_⟩
    rw [render_of_ne_nil (List.isEmpty_eq_false_iff.mp hsome)]
    congr 1
    apply List.map_congr_left
    intro part hpart
    rw [codeSection, hsectioned.counted part hpart]
  · intro other hperm
    exact render_congr hperm.symm

/-- Three findings, two of them alike, in two orders. -/
theorem render_canonical_repeated :
    let stray := Diagnostic.ofCode .invalidLineFormat 4 "invalid line format: unrecognized line"
    let chess := (Diagnostic.ofCode .unrecognizedActivity 7 "unrecognized activity").withSpan
      (.ofLine "log.txt" 7 "0800chess")
    let c := (Diagnostics.quiet.emitAll [chess, stray, chess]).1
    let other := (Diagnostics.fresh.emitAll [chess, chess, stray]).1
    c.entries.Perm other.entries ∧ c.isEmpty = false ∧ (∃ sections, IsSectioned c sections) ∧
      render other =
        "[source_invalid_line_format] Invalid line format (1)\n" ++
        "Line 4: invalid line format: unrecognized line\n" ++
        "\n" ++
        "[unrecognized_activity] Unrecognized activity (2)\n" ++
        "log.txt:7: Line 7: unrecognized activity\n    \"0800chess\"\n" ++
        "log.txt:7: Line 7: unrecognized activity\n    \"0800chess\"\n" := by
  intro stray chess c other
  have hperm : c.entries.Perm other.entries := by decide
  have hsome : c.isEmpty = false := by decide
  obtain ⟨-, hsections, hsame⟩ := render_canonical c
  obtain ⟨sections, hsectioned, -⟩ := hsections hsome
  have hsorted : c.sorted = [stray, chess, chess] :=
    (Diagnostic.eq_sort (by decide) (by decide +kernel)).symm
  refine ⟨hperm, hsome, ⟨sections, hsectioned⟩, (hsame other hperm).trans ?_⟩
  simp only [render, Diagnostics.grouped, Diagnostics.withCode, hsorted]
  decide +kernel

end Report

end Daybook
