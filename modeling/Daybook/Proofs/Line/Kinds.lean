/-
  Daybook/Proofs/Line/Kinds.lean
  ==============================
  **What a line can be.**  `ReadAs` lists the kinds of lines with what the text of a
  line must be for each (`readAs_classify`), so the columns that a kind names are
  those of its parts.  One kind is missing: an activity without a description.
  Blanks behind a time are passed over, the one that begins the separator among
  them, so a separator right behind the time is not seen as one, and its slashes
  are read as a description (`classify_separator`).
-/
import Daybook.Proofs.Line.Activity

namespace Daybook

open Daybook.Text

/-! ### Kinds of lines -/

/-- What a text must be that is read as a line of a kind. -/
inductive ReadAs (table : RuleTable) (line : String) : LineKind → Prop
  | blank : line = "" → ReadAs table line .blank
  | date {year : Option Int} {month day : Nat} : IsDateLine line.toList (.date year month day) →
      ReadAs table line (.date year month day)
  | remark {value : List Char} : line.toList = table.remarkLead.toList ++ value →
      ReadAs table line
        (.header .remark (String.ofList (trim value)) (table.remarkLead.length + 1))
  | field {field : HeaderField} {lead : String} {value : List Char} : field.lead? = some lead →
      line.toList = lead.toList ++ value →
        ReadAs table line (.header field (String.ofList (trim value)) (lead.length + 1))
  | activity {a : WrittenActivity} : activityLine? line.toList = some (.activity a) →
      ReadAs table line (.activity a)
  | badTime {time text : List Char} : timedText? line.toList = some (time, text) →
      ReadAs table line (.invalid (.badTime (String.ofList time)) 1 4)
  | unrecognized : line ≠ "" →
      ReadAs table line (.invalid .unrecognized 1 (lineWidth line.toList))

/-- The text behind a time begins with no blank, so there is a description. -/
theorem splitRemark_ne_nil {text description : List Char} {remark : Option (List Char)}
    (htext : IsTimedText text) (h : splitRemark text = (description, remark)) :
    description ≠ [] := by
  obtain ⟨first, rest, rfl, hfirst, -⟩ := exists_of_isTimedText htext
  obtain ⟨tail, -, rfl, -⟩ := exists_of_splitRemark hfirst h
  exact List.cons_ne_nil first tail

theorem readAs_of_activityLine? (table : RuleTable) {line : String} {kind : LineKind}
    (h : activityLine? line.toList = some kind) : ReadAs table line kind := by
  obtain ⟨⟨time, text⟩, htimed, hread⟩ := Option.map_eq_some_iff.mp h
  dsimp only at hread
  split at hread
  next htime =>
    rw [← hread]
    exact .badTime htimed
  next endTime htime =>
    obtain ⟨-, -, htext, -⟩ := timedText?_eq_some_iff.mp htimed
    generalize hsplit : splitRemark text = parts at hread
    obtain ⟨description, remark⟩ := parts
    have hne : ¬description.isEmpty = true := by
      simpa using splitRemark_ne_nil htext hsplit
    rw [if_neg hne] at hread
    rw [← hread] at h ⊢
    exact .activity h

/-- **Every line is read as what it is**, by the first reader that takes it. -/
theorem readAs_classify (table : RuleTable) (line : String) :
    ReadAs table line (classify table line) := by
  dsimp only [classify]
  split
  next hempty =>
    have hline : line = "" := by simpa using hempty
    exact .blank hline
  next hempty =>
    have hline : line ≠ "" := by simpa using hempty
    cases hdate : dateLine? line.toList with
    | some kind =>
      have hline := dateLine?_eq_some_iff.mp hdate
      obtain ⟨year, month, day, rfl⟩ := hline.exists_eq
      exact .date hline
    | none =>
    cases hremark : headerLine? .remark table.remarkLead line.toList with
    | some kind =>
      obtain ⟨value, hvalue, rfl⟩ := exists_of_headerLine? hremark
      exact .remark hvalue
    | none =>
    cases hfield : fieldLine? line.toList with
    | some kind =>
      obtain ⟨field, lead, value, hlead, hvalue, rfl⟩ := exists_of_fieldLine? hfield
      exact .field hlead hvalue
    | none =>
    cases hactivity : activityLine? line.toList with
    | some kind => exact readAs_of_activityLine? table hactivity
    | none => exact .unrecognized hline

theorem classify_eq_blank_iff {table : RuleTable} {line : String} :
    classify table line = .blank ↔ line = "" := by
  constructor
  · intro h
    have hread := readAs_classify table line
    rw [h] at hread
    cases hread with
    | blank hline => exact hline
  · rintro rfl
    rfl

/-- **A line is a date when it is written as one**, whatever else it could be read as. -/
theorem classify_eq_date_iff {table : RuleTable} {line : String} {year : Option Int}
    {month day : Nat} :
    classify table line = .date year month day ↔
      IsDateLine line.toList (.date year month day) := by
  constructor
  · intro h
    have hread := readAs_classify table line
    rw [h] at hread
    cases hread with
    | date hline => exact hline
  · intro h
    have hne : line.toList.isEmpty = false := List.isEmpty_eq_false_iff.mpr h.ne_nil
    simp only [classify, hne, dateLine?_eq_some_iff.mpr h, Option.some_or, Option.getD_some]
    rfl

/-- **No line lacks a description.** -/
theorem classify_ne_noDescription (table : RuleTable) (line : String) (first last : Nat) :
    classify table line ≠ .invalid .noDescription first last := by
  intro h
  have hread := readAs_classify table line
  rw [h] at hread
  cases hread

/-! ### Columns -/

section

variable {table : RuleTable} {line : String}

/-- A header line is the opening of its field and, from the column of the value on, the value. -/
theorem exists_append_of_header {field : HeaderField} {value : String} {column : Nat}
    (h : classify table line = .header field value column) :
    ∃ lead rest, line.toList = lead ++ rest ∧ column = lead.length + 1 ∧
      value = String.ofList (trim rest) := by
  have hread := readAs_classify table line
  rw [h] at hread
  cases hread with
  | remark hline => exact ⟨_, _, hline, rfl, rfl⟩
  | field _ hline => exact ⟨_, _, hline, rfl, rfl⟩

/-- The value of a header in a trimmed line stands in the line, or is empty and stands behind it. -/
theorem column_of_header (htrim : trim line.toList = line.toList) {field : HeaderField}
    {value : String} {column : Nat} (h : classify table line = .header field value column) :
    1 ≤ column ∧ (value ≠ "" → column ≤ line.length) ∧
      (value = "" → column = line.length + 1) := by
  obtain ⟨lead, rest, hline, rfl, rfl⟩ := exists_append_of_header h
  have hlength : line.length = lead.length + rest.length := by
    rw [← String.length_toList, hline, List.length_append]
  refine ⟨Nat.le_add_left 1 _, ?_, ?_⟩
  · intro hvalue
    have hrest : rest ≠ [] := by
      rintro rfl
      exact hvalue rfl
    have hpos := List.length_pos_iff.mpr hrest
    omega
  · intro hvalue
    have hblank : trim rest = [] := String.ofList_eq_empty_iff.mp hvalue
    rw [hline] at htrim
    rw [eq_nil_of_trim_append htrim hblank, List.length_nil] at hlength
    omega

/-- What is wrong in a line that is no line of a log stands in the line. -/
theorem columns_of_invalid {fault : LineFault} {first last : Nat}
    (h : classify table line = .invalid fault first last) :
    1 ≤ first ∧ first ≤ last ∧ last ≤ line.length := by
  have hread := readAs_classify table line
  rw [h] at hread
  cases hread with
  | badTime htimed =>
    obtain ⟨hlength, -, -, blanks, -, hline⟩ := timedText?_eq_some_iff.mp htimed
    have hle : 4 ≤ line.length := by
      rw [← String.length_toList, hline, List.length_append, hlength]
      exact Nat.le_add_right 4 _
    exact ⟨Nat.le_refl 1, by decide, hle⟩
  | unrecognized hline =>
    have hpos : 0 < line.toList.length := by
      rw [List.length_pos_iff]
      simpa using hline
    rw [lineWidth, ← String.length_toList]
    omega

/-- The description of an activity stands in the line, from its column on. -/
theorem exists_append_of_activity {a : WrittenActivity} (h : classify table line = .activity a) :
    a.description.toList ≠ [] ∧ ∃ front back,
      line.toList = front ++ (a.description.toList ++ back) ∧ a.column = front.length + 1 := by
  have hwritten := isWrittenIn_of_activityLine? (activityLine?_of_classify h)
  obtain ⟨blanks, rest, -, hcolumn, hline, -⟩ := hwritten.line
  refine ⟨hwritten.ne_nil, a.endTime.hhmm ++ blanks, rest, ?_, ?_⟩
  · rw [hline, List.append_assoc]
  · rw [hcolumn, List.length_append, TimeOfDay.length_hhmm]
    omega

end

/-! ### A separator right behind the time -/

/-- What is left of a separator and the text after it when the blank in front is passed over. -/
def slashesBefore (after : List Char) : List Char := '/' :: '/' :: ' ' :: trimEnd after

theorem trim_hhmm_append {time : TimeOfDay} {before after : List Char} (hafter : trim after ≠ []) :
    trim (time.hhmm ++ (before ++ remarkSeparator ++ after)) =
      time.hhmm ++ ((before ++ [' ']) ++ slashesBefore after) := by
  have hend : trimEnd after ≠ [] := by
    intro hnil
    exact hafter (trim_eq_nil_iff.mpr (trimEnd_eq_nil_iff.mp hnil))
  obtain ⟨d, digits, hdigits⟩ :=
    List.exists_cons_of_ne_nil (l := time.hhmm) (by rw [← List.length_pos_iff]; simp)
  have hd : isBlank d = false :=
    isBlank_of_isDigit (TimeOfDay.isDigit_of_mem_hhmm (hdigits ▸ List.mem_cons_self))
  have hstart : trimStart (time.hhmm ++ (before ++ remarkSeparator ++ after)) =
      time.hhmm ++ (before ++ remarkSeparator ++ after) := by
    rw [hdigits, List.cons_append, trimStart_cons hd]
  rw [trim, hstart, ← List.append_assoc, trimEnd_append, if_neg hend]
  simp [slashesBefore, remarkSeparator]

/-- The slashes are the beginning of the description. -/
theorem prefix_of_splitRemark_slashes {after description : List Char}
    {remark : Option (List Char)} (h : splitRemark (slashesBefore after) = (description, remark)) :
    ['/', '/'] <+: description := by
  have hslashes (rest : List Char) : ['/', '/'] <+: trim ('/' :: '/' :: rest) := by
    have hstart : trimStart ('/' :: '/' :: rest) = '/' :: '/' :: rest :=
      trimStart_cons (by decide) _
    have hend : trimEnd ['/', '/'] = ['/', '/'] := by decide
    have hsplit : '/' :: '/' :: rest = ['/', '/'] ++ rest := rfl
    rw [trim, hstart, hsplit, trimEnd_append, hend]
    split
    · exact List.prefix_rfl
    · exact List.prefix_append _ _
  rw [splitRemark] at h
  split at h
  next => exact (Prod.mk.inj h).1 ▸ hslashes _
  next front back hcut =>
    -- the separator begins with a blank, and no blank stands before the third place
    have htext := append_of_cutAt?_eq_some hcut
    rcases front with _ | ⟨c, _ | ⟨d, tail⟩⟩
    · simp [slashesBefore, remarkSeparator] at htext
    · simp [slashesBefore, remarkSeparator] at htext
    · obtain ⟨rfl, rfl, -⟩ : '/' = c ∧ '/' = d ∧ _ := by
        simpa [slashesBefore, remarkSeparator] using htext
      exact (Prod.mk.inj h).1 ▸ hslashes tail

section

variable {time : TimeOfDay} {before after : List Char}

theorem timedText?_slashes (time : TimeOfDay) (hbefore : ∀ b ∈ before, isBlank b = true) :
    timedText? (time.hhmm ++ ((before ++ [' ']) ++ slashesBefore after)) =
      if '\n' ∈ slashesBefore after then none else some (time.hhmm, slashesBefore after) := by
  have hblanks : ∀ b ∈ before ++ [' '], isBlank b = true := by
    intro b hb
    rcases List.mem_append.mp hb with hb | hb
    · exact hbefore b hb
    · obtain rfl := List.mem_singleton.mp hb
      decide
  have hslash : isBlank '/' = false := by decide
  rw [slashesBefore, timedText?_append time.length_hhmm (fun d => TimeOfDay.isDigit_of_mem_hhmm)
    hblanks hslash]
  split
  next hread => exact (if_neg (by simpa using hread)).symm
  next hread => exact (if_pos (by simpa using hread)).symm

theorem exists_activityLine?_slashes (htime : time.IsMinute)
    (hbefore : ∀ b ∈ before, isBlank b = true) (hlineFeed : '\n' ∉ slashesBefore after) :
    ∃ a : WrittenActivity,
      activityLine? (time.hhmm ++ ((before ++ [' ']) ++ slashesBefore after)) =
          some (.activity a) ∧
        a.endTime = time ∧ a.column = before.length + 6 ∧
        splitRemark (slashesBefore after) =
          (a.description.toList, a.remark.map String.toList) := by
  generalize hsplit : splitRemark (slashesBefore after) = parts
  obtain ⟨description, remark⟩ := parts
  let a : WrittenActivity := {
    endTime := time, column := before.length + 6
    description := String.ofList description, remark := remark.map String.ofList }
  have hsaid : (description, remark) = (a.description.toList, a.remark.map String.toList) := by
    simp [a, Function.comp_def]
  have htimed := (timedText?_slashes time hbefore).trans (if_neg hlineFeed)
  refine ⟨a, activityLine?_eq_some_iff.mpr ⟨time.hhmm, slashesBefore after, htimed,
    TimeOfDay.ofHHMM?_eq_some_iff.mpr ⟨htime, rfl⟩, hsplit.trans hsaid, ?_, ?_⟩, rfl, rfl, hsaid⟩
  · simpa [a] using (prefix_of_splitRemark_slashes hsplit).ne_nil (by decide)
  · simp only [a, List.length_append, TimeOfDay.length_hhmm, List.length_singleton]
    omega

end

/-- **A separator right behind the time is read as a description.**  No line is refused because its
    description is missing.  Where only blanks stand between the time and the first separator, and
    something stands behind it, the line is an activity whose description begins with the slashes
    of the separator, up to the next separator if there is one; a line feed in it makes it no
    activity, as in any other text. -/
theorem classify_separator (table : RuleTable) :
    (∀ line first last, classify table line ≠ .invalid .noDescription first last) ∧
      ∀ (time : TimeOfDay) (text before after : List Char), time.IsMinute →
        cutAt? remarkSeparator text = some (before, after) →
        (∀ b ∈ before, isBlank b = true) → trim after ≠ [] →
        ¬table.remarkLead.toList <+: trim (time.hhmm ++ text) →
        let line := String.ofList (trim (time.hhmm ++ text))
        let said := slashesBefore after
        if '\n' ∈ said then
          classify table line = .invalid .unrecognized 1 (lineWidth line.toList)
        else
          ∃ a : WrittenActivity, classify table line = .activity a ∧ a.endTime = time ∧
            a.column = before.length + 6 ∧ ['/', '/'] <+: a.description.toList ∧
            splitRemark said = (a.description.toList, a.remark.map String.toList) := by
  refine ⟨classify_ne_noDescription table, ?_⟩
  intro time text before after htime hcut hbefore hafter hremark line said
  have hparts : line.toList = time.hhmm ++ ((before ++ [' ']) ++ said) := by
    rw [String.toList_ofList, append_of_cutAt?_eq_some hcut, trim_hhmm_append hafter]
  have hremark : ¬table.remarkLead.toList <+: line.toList := by
    rw [String.toList_ofList]
    exact hremark
  split
  next hlineFeed =>
    have hnone : activityLine? line.toList = none := by
      rw [hparts, activityLine?, timedText?_slashes time hbefore, if_pos hlineFeed, Option.map_none]
    obtain ⟨c, rest, hrest, hc⟩ : ∃ c rest, (before ++ [' ']) ++ said = c :: rest ∧ c ≠ '_' := by
      cases before with
      | nil => exact ⟨_, _, rfl, by decide⟩
      | cons b blanks =>
        refine ⟨b, _, rfl, ?_⟩
        rintro rfl
        exact absurd (hbefore _ List.mem_cons_self) (by decide)
    rw [hrest] at hparts
    rw [classify_of_fourDigits hparts time.length_hhmm (fun d => TimeOfDay.isDigit_of_mem_hhmm) hc
      hremark, hnone, Option.getD_none]
  next hlineFeed =>
    obtain ⟨a, hread, hend, hcolumn, hsplit⟩ :=
      exists_activityLine?_slashes htime hbefore hlineFeed
    rw [← hparts] at hread
    exact ⟨a, classify_eq_activity hremark hread, hend, hcolumn,
      prefix_of_splitRemark_slashes hsplit, hsplit⟩

/-- A line of a time and two remarks, with more than one blank behind the time. -/
theorem classify_separator_two_remarks :
    let table : RuleTable := {}
    let time : TimeOfDay := { hour := 9, minute := 30 }
    let text := " \t // a // b ".toList
    let before := [' ', '\t']
    let after := "a // b ".toList
    time.IsMinute ∧ cutAt? remarkSeparator text = some (before, after) ∧
      (∀ b ∈ before, isBlank b = true) ∧ trim after ≠ [] ∧
      ¬table.remarkLead.toList <+: trim (time.hhmm ++ text) ∧
      trim (time.hhmm ++ text) = "0930 \t // a // b".toList ∧
      '\n' ∉ slashesBefore after ∧
      ∃ a : WrittenActivity, classify table "0930 \t // a // b" = .activity a ∧ a.endTime = time ∧
        a.column = 8 ∧ a.description = "// a" ∧ a.remark = some "b" := by
  intro table time text before after
  have hcut : cutAt? remarkSeparator text = some (before, after) := by decide
  have hbefore : ∀ b ∈ before, isBlank b = true := List.all_eq_true.mp (by decide)
  have hafter : trim after ≠ [] := by decide
  have hremark : ¬table.remarkLead.toList <+: trim (time.hhmm ++ text) := by decide
  have hline : trim (time.hhmm ++ text) = "0930 \t // a // b".toList := by decide
  have hlineFeed : '\n' ∉ slashesBefore after := by decide
  have hread := (classify_separator table).2 time text before after ⟨rfl, rfl⟩ hcut hbefore hafter
    hremark
  dsimp only at hread
  rw [if_neg hlineFeed, hline, String.ofList_toList] at hread
  obtain ⟨a, hkind, hend, hcolumn, -, hsplit⟩ := hread
  have hsaid : splitRemark (slashesBefore after) = ("// a".toList, some "b".toList) := by decide
  rw [hsaid] at hsplit
  obtain ⟨hdescription, hremarks⟩ := Prod.mk.inj hsplit
  refine ⟨⟨rfl, rfl⟩, hcut, hbefore, hafter, hremark, hline, hlineFeed, a, hkind, hend, hcolumn,
    (String.toList_inj.mp hdescription).symm, ?_⟩
  obtain ⟨remark, hsome, hb⟩ := Option.map_eq_some_iff.mp hremarks.symm
  rw [hsome, String.toList_inj.mp hb]

/-- **A line of a time and a remark is not refused.**  It has a separator with nothing but the time
    before it and a remark behind it, and is an activity with the separator in its description. -/
theorem classify_remark_only :
    let table : RuleTable := {}
    let time : TimeOfDay := { hour := 9, minute := 30 }
    let text := " // fixed parser".toList
    let line := String.ofList (trim (time.hhmm ++ text))
    time.IsMinute ∧ cutAt? remarkSeparator text = some ([], "fixed parser".toList) ∧
      trim "fixed parser".toList ≠ [] ∧ ¬table.remarkLead.toList <+: line.toList ∧
      line = "0930 // fixed parser" ∧
      classify table line = .activity {
        endTime := time, description := "// fixed parser", remark := none, column := 6 } ∧
      ∀ first last, classify table line ≠ .invalid .noDescription first last := by
  intro table time text line
  have hread : classify table line = .activity {
      endTime := time, description := "// fixed parser", remark := none, column := 6 } := by
    decide +kernel
  refine ⟨⟨rfl, rfl⟩, by decide, by decide, by decide, by decide, hread, ?_⟩
  intro first last h
  rw [hread] at h
  cases h

end Daybook
