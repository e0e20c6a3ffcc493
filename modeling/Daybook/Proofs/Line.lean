/-
  Daybook/Proofs/Line.lean
  ========================
  **What the readers of a line take.**  A date line is two or three numbers of so
  many digits (`dateLine?_eq_some_iff`), and the value of a yes-or-no field is one
  digit (`readFlag?_eq_some_iff`).  Only the last of the readers that `classify`
  tries makes an activity (`activityLine?_eq_some_iff`), and it hands on a
  description that has been trimmed, so nothing is left to trim when the
  description is looked up in the rules.
-/
import Daybook.Line
import Daybook.Proofs.Text.Cut
import Daybook.Proofs.Text.Trim

namespace Daybook

open Daybook.Text

/-! ### Dates -/

/-- Whether a text is a number, written with so many digits. -/
structure IsNumeral (width value : Nat) (cs : List Char) : Prop where
  length : cs.length = width
  digits : ∀ c ∈ cs, c.isDigit = true
  value : digitsValue cs = value

theorem readFixed?_eq_some_iff {width value : Nat} {cs : List Char} :
    readFixed? width cs = some value ↔ IsNumeral width value cs := by
  rw [readFixed?, Option.ite_none_right_eq_some, List.all_eq_true, Option.some.injEq]
  constructor
  · rintro ⟨⟨hlength, hdigits⟩, hvalue⟩
    exact ⟨hlength, hdigits, hvalue⟩
  · rintro ⟨hlength, hdigits, hvalue⟩
    exact ⟨⟨hlength, hdigits⟩, hvalue⟩

section

variable {width value : Nat} {cs : List Char} (h : IsNumeral width value cs)
include h

theorem IsNumeral.notMem : '_' ∉ cs := by
  intro hmem
  exact absurd (h.digits '_' hmem) (by decide)

theorem IsNumeral.splitAt_append (rest : List Char) :
    splitAt '_' (cs ++ '_' :: rest) = cs :: splitAt '_' rest := by
  rw [splitAt_eq_splitOn, splitAt_eq_splitOn, List.splitOn_append_cons_self_of_not_mem h.notMem]

theorem IsNumeral.splitAt_eq : splitAt '_' cs = [cs] := by
  rw [splitAt_eq_splitOn, List.splitOn_eq_singleton h.notMem]

theorem IsNumeral.takeWhile_append (rest : List Char) :
    (cs ++ '_' :: rest).takeWhile (fun c => c ≠ '_') = cs := by
  have hcs : ∀ c ∈ cs, decide (c ≠ '_') = true := by
    intro c hc
    rw [decide_eq_true_eq]
    rintro rfl
    exact h.notMem hc
  rw [List.takeWhile_append_of_pos hcs, List.takeWhile_cons_of_neg (by simp), List.append_nil]

end

/-- How a date line is written, and what it says: its month and its day with two digits each, in
    front of them its year with four or nothing, and `_` between them. -/
inductive IsDateLine : List Char → LineKind → Prop
  | full {year month day : List Char} {y m d : Nat} :
      IsNumeral 4 y year → IsNumeral 2 m month → IsNumeral 2 d day →
        IsDateLine (year ++ '_' :: (month ++ '_' :: day)) (.date (some y) m d)
  | short {month day : List Char} {m d : Nat} : IsNumeral 2 m month → IsNumeral 2 d day →
      IsDateLine (month ++ '_' :: day) (.date none m d)

/-- **What is read as a date line is written as one**, and says what it is read as. -/
theorem dateLine?_eq_some_iff {cs : List Char} {kind : LineKind} :
    dateLine? cs = some kind ↔ IsDateLine cs kind := by
  constructor
  · intro h
    have hjoined : ['_'].intercalate (splitAt '_' cs) = cs := by
      rw [splitAt_eq_splitOn, List.intercalate_splitOn]
    rw [dateLine?] at h
    split at h
    next year month day hparts =>
      obtain ⟨y, hyear, h⟩ := Option.bind_eq_some_iff.mp h
      obtain ⟨m, hmonth, h⟩ := Option.bind_eq_some_iff.mp h
      obtain ⟨d, hday, h⟩ := Option.bind_eq_some_iff.mp h
      obtain rfl := Option.some.inj h
      rw [hparts, List.intercalate_cons_cons, List.intercalate_cons_cons,
        List.intercalate_singleton, List.append_assoc, List.append_assoc] at hjoined
      rw [readFixed?_eq_some_iff] at hyear hmonth hday
      exact hjoined ▸ .full hyear hmonth hday
    next month day hparts =>
      obtain ⟨m, hmonth, h⟩ := Option.bind_eq_some_iff.mp h
      obtain ⟨d, hday, h⟩ := Option.bind_eq_some_iff.mp h
      obtain rfl := Option.some.inj h
      rw [hparts, List.intercalate_cons_cons, List.intercalate_singleton,
        List.append_assoc] at hjoined
      rw [readFixed?_eq_some_iff] at hmonth hday
      exact hjoined ▸ .short hmonth hday
    next => cases h
  · intro h
    cases h with
    | full hyear hmonth hday =>
      rw [dateLine?, hyear.splitAt_append, hmonth.splitAt_append, hday.splitAt_eq]
      simp [readFixed?_eq_some_iff.mpr hyear, readFixed?_eq_some_iff.mpr hmonth,
        readFixed?_eq_some_iff.mpr hday]
    | short hmonth hday =>
      rw [dateLine?, hmonth.splitAt_append, hday.splitAt_eq]
      simp [readFixed?_eq_some_iff.mpr hmonth, readFixed?_eq_some_iff.mpr hday]

section

variable {cs : List Char} {kind : LineKind}

theorem IsDateLine.exists_eq (h : IsDateLine cs kind) :
    ∃ year month day, kind = .date year month day := by
  cases h with
  | full => exact ⟨_, _, _, rfl⟩
  | short => exact ⟨_, _, _, rfl⟩

theorem IsDateLine.ne_nil (h : IsDateLine cs kind) : cs ≠ [] := by
  cases h with
  | full => exact List.append_ne_nil_of_right_ne_nil _ (List.cons_ne_nil _ _)
  | short => exact List.append_ne_nil_of_right_ne_nil _ (List.cons_ne_nil _ _)

/-- No part of a date is longer than its year. -/
theorem IsDateLine.length_takeWhile_le (h : IsDateLine cs kind) :
    (cs.takeWhile fun c => c ≠ '_').length ≤ 4 := by
  cases h with
  | full hyear => rw [hyear.takeWhile_append, hyear.length]
  | short hmonth =>
    rw [hmonth.takeWhile_append, hmonth.length]
    decide

end

/-! ### Flags -/

section

variable {s : String} {flag : Bool}

theorem readFlag?_eq_some_iff_trim :
    readFlag? s = some flag ↔ trim s.toList = if flag then ['1'] else ['0'] := by
  rw [readFlag?]
  split
  next hzero => cases flag <;> simp [hzero]
  next hone => cases flag <;> simp [hone]
  next hzero hone =>
    cases flag with
    | false => simpa using hzero
    | true => simpa using hone

/-- **Yes is a `1` and no is a `0`**, with nothing but blanks around it. -/
theorem readFlag?_eq_some_iff :
    readFlag? s = some flag ↔ ∃ front back, (∀ c ∈ front, isBlank c = true) ∧
      (∀ c ∈ back, isBlank c = true) ∧
      s.toList = front ++ ((if flag then ['1'] else ['0']) ++ back) := by
  rw [readFlag?_eq_some_iff_trim]
  apply trim_eq_iff
  cases flag <;> decide

/-- Where blanks have been taken away already, nothing but the digit is left. -/
theorem readFlag?_eq_some_iff_of_trim (h : trim s.toList = s.toList) :
    readFlag? s = some flag ↔ s = if flag then "1" else "0" := by
  rw [readFlag?_eq_some_iff_trim, h, ← String.toList_inj]
  cases flag <;> rfl

end

/-! ### The readers -/

theorem exists_of_headerLine? {field : HeaderField} {lead : String} {cs : List Char}
    {kind : LineKind} (h : headerLine? field lead cs = some kind) :
    ∃ value, cs = lead.toList ++ value ∧
      kind = .header field (String.ofList (trim value)) (lead.length + 1) := by
  obtain ⟨value, hvalue, hkind⟩ := Option.map_eq_some_iff.mp h
  exact ⟨value, (List.isPrefixOf?_eq_some_iff_append_eq.mp hvalue).symm, hkind.symm⟩

theorem exists_of_fieldLine? {cs : List Char} {kind : LineKind} (h : fieldLine? cs = some kind) :
    ∃ field lead value, HeaderField.lead? field = some lead ∧ cs = lead.toList ++ value ∧
      kind = .header field (String.ofList (trim value)) (lead.length + 1) := by
  obtain ⟨field, -, hfield⟩ := List.exists_of_findSome?_eq_some h
  obtain ⟨lead, hlead, hline⟩ := Option.bind_eq_some_iff.mp hfield
  obtain ⟨value, hvalue, hkind⟩ := exists_of_headerLine? hline
  exact ⟨field, lead, value, hlead, hvalue, hkind⟩

theorem activityLine?_of_classify {table : RuleTable} {line : String} {written : WrittenActivity}
    (h : classify table line = .activity written) :
    activityLine? line.toList = some (.activity written) := by
  dsimp only [classify] at h
  split at h
  · cases h
  · rcases Option.getD_eq_iff.mp h with hread | ⟨-, hfault⟩
    · rcases Option.or_eq_some_iff.mp hread with hdate | ⟨-, hread⟩
      · obtain ⟨year, month, day, hkind⟩ := (dateLine?_eq_some_iff.mp hdate).exists_eq
        cases hkind
      rcases Option.or_eq_some_iff.mp hread with hremark | ⟨-, hread⟩
      · obtain ⟨value, -, hkind⟩ := exists_of_headerLine? hremark
        cases hkind
      rcases Option.or_eq_some_iff.mp hread with hfield | ⟨-, hactivity⟩
      · obtain ⟨field, lead, value, -, -, hkind⟩ := exists_of_fieldLine? hfield
        cases hkind
      · exact hactivity
    · cases hfault

/-- What the reader of an activity line asks of it, and what it makes of that. -/
theorem activityLine?_eq_some_iff {cs : List Char} {a : WrittenActivity} :
    activityLine? cs = some (.activity a) ↔
      ∃ time text, timedText? cs = some (time, text) ∧
        TimeOfDay.ofHHMM? time = some a.endTime ∧
        splitRemark text = (a.description.toList, a.remark.map String.toList) ∧
        a.description.toList ≠ [] ∧ a.column = cs.length - text.length + 1 := by
  constructor
  · intro h
    obtain ⟨⟨time, text⟩, htimed, hread⟩ := Option.map_eq_some_iff.mp h
    dsimp only at hread
    split at hread
    next => cases hread
    next endTime htime =>
      split at hread
      next => cases hread
      next hdescription =>
        cases hread
        refine ⟨time, text, htimed, htime, ?_, ?_, rfl⟩
        · simp [Function.comp_def]
        · simpa using hdescription
  · rintro ⟨time, text, htimed, htime, hsplit, hdescription, hcolumn⟩
    have hremark : (a.remark.map String.toList).map String.ofList = a.remark := by
      simp [Function.comp_def]
    rw [activityLine?, htimed, Option.map_some]
    dsimp only
    rw [htime, hsplit]
    dsimp only
    rw [if_neg (by simpa using hdescription), hremark, String.ofList_toList, ← hcolumn]

/-! ### The description -/

theorem trim_splitRemark (text : List Char) : trim (splitRemark text).1 = (splitRemark text).1 := by
  unfold splitRemark
  split <;> simp

theorem trim_description {cs : List Char} {a : WrittenActivity}
    (h : activityLine? cs = some (.activity a)) :
    trim a.description.toList = a.description.toList := by
  obtain ⟨time, text, -, -, hsplit, -⟩ := activityLine?_eq_some_iff.mp h
  have htrimmed := trim_splitRemark text
  rw [hsplit] at htrimmed
  exact htrimmed

theorem trimmed_description {table : RuleTable} {line : String} {written : WrittenActivity}
    (h : classify table line = .activity written) :
    trimmed written.description = written.description := by
  rw [trimmed, trim_description (activityLine?_of_classify h), String.ofList_toList]

end Daybook
