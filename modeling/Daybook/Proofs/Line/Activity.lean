/-
  Daybook/Proofs/Line/Activity.lean
  =================================
  **Reading an activity line undoes writing it.**  A written activity is the four
  digits of its time, blanks, its description and, after ` // `, its remark.  It is
  read back as it was when its parts cannot be taken for one another
  (`WrittenActivity.IsWritable`): the separator then stands first where it was
  written (`splitRemark_writtenText`), and no other form of line begins with four
  digits that are followed by anything but `_` (`classify_eq_activity`).
  Conversely, what was read tells how the line was written
  (`isWrittenIn_of_activityLine?`).
-/
import Daybook.Proofs.Calendar.TimeText
import Daybook.Proofs.Line

namespace Daybook

open Daybook.Text

/-! ### Writing -/

/-- Whether a description stands in a line as it is. -/
structure IsDescription (d : List Char) : Prop where
  trimmed : trim d = d
  ne_nil : d ≠ []
  /-- Four digits and `_` would begin a date. -/
  head_ne : d.head? ≠ some '_'
  lineFeed : '\n' ∉ d
  separator : ¬remarkSeparator <:+: d
  /-- The separator of a remark would be taken for the end of an earlier one. -/
  ending : ¬[' ', '/', '/'] <:+ d

/-- Whether a remark stands in a line as it is. -/
structure IsRemark (r : List Char) : Prop where
  trimmed : trim r = r
  ne_nil : r ≠ []
  lineFeed : '\n' ∉ r

/-- A description, and its remark after the separator. -/
def writtenText (description : List Char) : Option (List Char) → List Char
  | none => description
  | some remark => description ++ (remarkSeparator ++ remark)

namespace WrittenActivity

structure IsWritable (a : WrittenActivity) : Prop where
  minute : a.endTime.IsMinute
  description : IsDescription a.description.toList
  remark : ∀ r ∈ a.remark, IsRemark r.toList

/-- The line of an activity with blanks between its time and its description. -/
def write (a : WrittenActivity) (blanks : List Char) : String :=
  String.ofList <|
    a.endTime.hhmm ++ (blanks ++ writtenText a.description.toList (a.remark.map String.toList))

end WrittenActivity

/-! ### The description and the remark -/

/-- Only the blank that ends the separator can begin another one. -/
theorem not_separator_prefix {d : List Char} (h : IsDescription d) (remark : List Char)
    {tail : List Char} (hne : tail ≠ []) (htail : tail <:+ d) :
    ¬remarkSeparator <+: tail ++ (remarkSeparator ++ remark) := by
  intro hbegins
  -- how much of the separator the description would have to end with
  match tail, hne with
  | [c], _ => simp [remarkSeparator] at hbegins
  | [c, d], _ => simp [remarkSeparator] at hbegins
  | [c, d, e], _ =>
    obtain ⟨rfl, rfl, rfl⟩ : ' ' = c ∧ '/' = d ∧ '/' = e := by
      simpa [remarkSeparator] using hbegins
    exact h.ending htail
  | c :: d :: e :: f :: rest, _ =>
    have hwhole : remarkSeparator <+: c :: d :: e :: f :: rest :=
      List.prefix_of_prefix_length_le hbegins (List.prefix_append _ _) (by simp [remarkSeparator])
    exact h.separator (hwhole.isInfix.trans htail.isInfix)

theorem lineFeed_writtenText {d : List Char} {remark : Option (List Char)}
    (h : IsDescription d) (hremark : ∀ r ∈ remark, IsRemark r) : '\n' ∉ writtenText d remark := by
  cases remark with
  | none => exact h.lineFeed
  | some r =>
    have hr := (hremark r rfl).lineFeed
    simp [writtenText, remarkSeparator, h.lineFeed, hr]

theorem cutAt?_writtenText {d : List Char} (h : IsDescription d) (remark : List Char) :
    cutAt? remarkSeparator (d ++ (remarkSeparator ++ remark)) = some (d, remark) :=
  cutAt?_append remark (by decide) fun _ hne htail => not_separator_prefix h remark hne htail

theorem splitRemark_writtenText {d : List Char} {remark : Option (List Char)}
    (h : IsDescription d) (hremark : ∀ r ∈ remark, IsRemark r) :
    splitRemark (writtenText d remark) = (d, remark) := by
  cases remark with
  | none => simp only [writtenText, splitRemark, cutAt?_eq_none h.separator, h.trimmed]
  | some r =>
    obtain ⟨htrimmed, hne, -⟩ := hremark r rfl
    simp [writtenText, splitRemark, cutAt?_writtenText h, h.trimmed, htrimmed, hne]

theorem exists_cons_of_isDescription {d : List Char} (h : IsDescription d) :
    ∃ c rest, d = c :: rest ∧ isBlank c = false ∧ c ≠ '_' := by
  obtain ⟨c, rest, rfl⟩ := List.exists_cons_of_ne_nil h.ne_nil
  refine ⟨c, rest, rfl, isBlank_of_trim_cons h.trimmed, ?_⟩
  rintro rfl
  exact h.head_ne rfl

/-! ### The form of a line -/

/-- Whether a text can stand after a time. -/
def IsTimedText : List Char → Prop
  | [] => False
  | first :: rest => isBlank first = false ∧ first ≠ '_' ∧ '\n' ∉ rest

theorem exists_of_isTimedText {text : List Char} (h : IsTimedText text) :
    ∃ first rest, text = first :: rest ∧ isBlank first = false ∧ first ≠ '_' ∧ '\n' ∉ rest := by
  cases text with
  | nil => exact absurd h id
  | cons first rest => exact ⟨first, rest, rfl, h⟩

/-- What stands behind four digits and blanks, where it is no blank. -/
theorem timedText?_append {time blanks : List Char} {first : Char} (hlength : time.length = 4)
    (hdigits : ∀ d ∈ time, d.isDigit = true) (hblanks : ∀ b ∈ blanks, isBlank b = true)
    (hfirst : isBlank first = false) (rest : List Char) :
    timedText? (time ++ (blanks ++ first :: rest)) =
      if first ≠ '_' ∧ '\n' ∉ rest then some (time, first :: rest) else none := by
  have hall : time.all Char.isDigit = true := List.all_eq_true.mpr hdigits
  rw [timedText?, List.take_left' hlength, List.drop_left' hlength,
    trimStart_append_of_blank hblanks, trimStart_cons hfirst]
  simp only [hlength, hall, true_and]

theorem timedText?_eq_some_iff {cs time text : List Char} :
    timedText? cs = some (time, text) ↔
      time.length = 4 ∧ (∀ d ∈ time, d.isDigit = true) ∧ IsTimedText text ∧
        ∃ blanks, (∀ b ∈ blanks, isBlank b = true) ∧ cs = time ++ (blanks ++ text) := by
  constructor
  · intro h
    rw [timedText?] at h
    obtain ⟨blanks, hblanks, hall⟩ := exists_append_trimStart (cs.drop 4)
    cases htext : trimStart (cs.drop 4) with
    | nil =>
      rw [htext] at h
      cases h
    | cons first rest =>
      rw [htext] at h hblanks
      obtain ⟨⟨hlength, hdigits, hne, hrest⟩, hparts⟩ := Option.ite_none_right_eq_some.mp h
      obtain ⟨rfl, rfl⟩ := Prod.mk.inj (Option.some.inj hparts)
      have hfirst : isBlank first = false := isBlank_of_trimStart_eq_cons htext
      refine ⟨hlength, List.all_eq_true.mp hdigits, ⟨hfirst, hne, hrest⟩, blanks, hall, ?_⟩
      rw [← hblanks, List.take_append_drop]
  · rintro ⟨hlength, hdigits, htext, blanks, hblanks, rfl⟩
    obtain ⟨first, rest, rfl, hfirst, hne, hrest⟩ := exists_of_isTimedText htext
    rw [timedText?_append hlength hdigits hblanks hfirst]
    exact if_pos ⟨hne, hrest⟩

/-! ### Lines that are read otherwise -/

theorem dateLine?_eq_none {cs : List Char} (h : 4 < (cs.takeWhile fun c => c ≠ '_').length) :
    dateLine? cs = none := by
  rw [Option.eq_none_iff_forall_ne_some]
  intro kind hkind
  exact absurd (dateLine?_eq_some_iff.mp hkind).length_takeWhile_le (Nat.not_le.mpr h)

theorem exists_cons_of_lead? {field : HeaderField} {lead : String} (h : field.lead? = some lead) :
    ∃ c rest, lead.toList = c :: rest ∧ c.isDigit = false := by
  cases field <;> cases h <;> exact ⟨_, _, rfl, by decide⟩

/-- No field opens its lines with a digit. -/
theorem fieldLine?_eq_none {c : Char} (hc : c.isDigit = true) (cs : List Char) :
    fieldLine? (c :: cs) = none := by
  rw [fieldLine?, List.findSome?_eq_none_iff]
  intro field _
  rw [Option.bind_eq_none_iff]
  intro lead hlead
  obtain ⟨d, rest, hopening, hd⟩ := exists_cons_of_lead? hlead
  have hne : ¬lead.toList <+: c :: cs := by
    intro hbegins
    rw [hopening, List.cons_prefix_cons] at hbegins
    rw [hbegins.1, hc] at hd
    cases hd
  rw [headerLine?, isPrefixOf?_eq_none hne, Option.map_none]

theorem exists_cons_append_of_isTimedText {blanks text : List Char}
    (hblanks : ∀ b ∈ blanks, isBlank b = true) (htext : IsTimedText text) :
    ∃ c rest, blanks ++ text = c :: rest ∧ c ≠ '_' := by
  cases blanks with
  | nil =>
    obtain ⟨first, rest, rfl, -, hne, -⟩ := exists_of_isTimedText htext
    exact ⟨first, rest, rfl, hne⟩
  | cons b blanks =>
    refine ⟨b, blanks ++ text, rfl, ?_⟩
    rintro rfl
    exact absurd (hblanks _ List.mem_cons_self) (by decide)

/-- A line that begins with four digits, and no `_` behind them, is read as an activity or not at
    all, unless it opens as a remark. -/
theorem classify_of_fourDigits {table : RuleTable} {line : String} {time rest : List Char}
    {c : Char} (hline : line.toList = time ++ c :: rest) (hlength : time.length = 4)
    (hdigits : ∀ d ∈ time, d.isDigit = true) (hc : c ≠ '_')
    (hremark : ¬table.remarkLead.toList <+: line.toList) :
    classify table line =
      (activityLine? line.toList).getD (.invalid .unrecognized 1 (lineWidth line.toList)) := by
  have hunder : ∀ d ∈ time, decide (d ≠ '_') = true := by
    intro d hd
    rw [decide_eq_true_eq]
    rintro rfl
    exact absurd (hdigits _ hd) (by decide)
  have hdate : dateLine? line.toList = none := by
    apply dateLine?_eq_none
    rw [hline, List.takeWhile_append_of_pos hunder,
      List.takeWhile_cons_of_pos (by simpa using hc), List.length_append, List.length_cons]
    omega
  obtain ⟨d, tail, rfl⟩ := List.exists_cons_of_ne_nil (l := time) (by rintro rfl; cases hlength)
  have hfield : fieldLine? line.toList = none := by
    rw [hline, List.cons_append]
    exact fieldLine?_eq_none (hdigits d List.mem_cons_self) _
  have hne : line.toList.isEmpty = false := by
    rw [hline]
    rfl
  simp only [classify, hne, hdate, hfield, headerLine?, isPrefixOf?_eq_none hremark,
    Option.map_none, Option.none_or]
  rfl

/-- A line with the form of an activity is taken for another only if it opens as a remark. -/
theorem classify_eq_activity {table : RuleTable} {line : String} {a : WrittenActivity}
    (hremark : ¬table.remarkLead.toList <+: line.toList)
    (h : activityLine? line.toList = some (.activity a)) : classify table line = .activity a := by
  obtain ⟨time, text, htimed, -⟩ := activityLine?_eq_some_iff.mp h
  obtain ⟨hlength, hdigits, htext, blanks, hblanks, hline⟩ := timedText?_eq_some_iff.mp htimed
  obtain ⟨c, rest, htail, hc⟩ := exists_cons_append_of_isTimedText hblanks htext
  rw [htail] at hline
  rw [classify_of_fourDigits hline hlength hdigits hc hremark, h, Option.getD_some]

/-! ### Reading what was written -/

namespace WrittenActivity

variable {a : WrittenActivity}

theorem IsWritable.isRemark (h : a.IsWritable) :
    ∀ r ∈ a.remark.map String.toList, IsRemark r := by
  intro r hr
  obtain ⟨text, htext, rfl⟩ := Option.map_eq_some_iff.mp hr
  exact h.remark text htext

theorem IsWritable.isTimedText (h : a.IsWritable) :
    IsTimedText (writtenText a.description.toList (a.remark.map String.toList)) := by
  have hlineFeed := lineFeed_writtenText h.description h.isRemark
  obtain ⟨c, tail, hd, hc, hne⟩ := exists_cons_of_isDescription h.description
  have hfirst : ∃ rest,
      writtenText a.description.toList (a.remark.map String.toList) = c :: rest := by
    cases a.remark.map String.toList with
    | none => exact ⟨tail, hd⟩
    | some r => exact ⟨_, congrArg (· ++ _) hd⟩
  obtain ⟨rest, htext⟩ := hfirst
  rw [htext] at hlineFeed ⊢
  exact ⟨hc, hne, fun hmem => hlineFeed (List.mem_cons_of_mem c hmem)⟩

theorem activityLine?_write {blanks : List Char} (h : a.IsWritable)
    (hblanks : ∀ c ∈ blanks, isBlank c = true) (hcolumn : a.column = 5 + blanks.length) :
    activityLine? (a.write blanks).toList = some (.activity a) := by
  refine activityLine?_eq_some_iff.mpr ⟨a.endTime.hhmm, _, timedText?_eq_some_iff.mpr
    ⟨a.endTime.length_hhmm, fun d => TimeOfDay.isDigit_of_mem_hhmm, h.isTimedText, blanks, hblanks,
      String.toList_ofList⟩, TimeOfDay.ofHHMM?_eq_some_iff.mpr ⟨h.minute, rfl⟩,
    splitRemark_writtenText h.description h.isRemark, h.description.ne_nil, ?_⟩
  rw [write, String.toList_ofList, List.length_append, List.length_append,
    TimeOfDay.length_hhmm, hcolumn]
  omega

end WrittenActivity

/-! ### How a line that was read is written -/

/-- What may stand behind a description, with the remark that it makes. -/
inductive RemarkFollows : List Char → Option (List Char) → Prop
  | blanks {rest : List Char} : (∀ c ∈ rest, isBlank c = true) → RemarkFollows rest none
  /-- A separator with nothing behind it is no remark. -/
  | blankRemark {gap after : List Char} : (∀ c ∈ gap, isBlank c = true) →
      (∀ c ∈ after, isBlank c = true) → RemarkFollows (gap ++ (remarkSeparator ++ after)) none
  | remark {gap after : List Char} : (∀ c ∈ gap, isBlank c = true) → trim after ≠ [] →
      RemarkFollows (gap ++ (remarkSeparator ++ after)) (some (trim after))

/-- How a line is written that is read as an activity. -/
structure WrittenActivity.IsWrittenIn (a : WrittenActivity) (cs : List Char) : Prop where
  minute : a.endTime.IsMinute
  trimmed : trim a.description.toList = a.description.toList
  ne_nil : a.description.toList ≠ []
  head_ne : a.description.toList.head? ≠ some '_'
  line : ∃ blanks rest, (∀ c ∈ blanks, isBlank c = true) ∧ a.column = 5 + blanks.length ∧
    cs = a.endTime.hhmm ++ (blanks ++ (a.description.toList ++ rest)) ∧
    RemarkFollows rest (a.remark.map String.toList)

theorem exists_of_splitRemark {first : Char} (hfirst : isBlank first = false)
    {text description : List Char} {remark : Option (List Char)}
    (h : splitRemark (first :: text) = (description, remark)) :
    ∃ tail rest, description = first :: tail ∧ first :: text = description ++ rest ∧
      RemarkFollows rest remark := by
  rw [splitRemark] at h
  cases hcut : cutAt? remarkSeparator (first :: text) with
  | none =>
    rw [hcut] at h
    obtain ⟨rfl, rfl⟩ := Prod.mk.inj h
    obtain ⟨tail, htail, hend⟩ := trim_cons hfirst text
    obtain ⟨blanks, hparts, hblanks⟩ := exists_trimEnd_append (first :: text)
    rw [← hend] at hparts
    exact ⟨tail, blanks, htail, hparts, .blanks hblanks⟩
  | some parts =>
    obtain ⟨before, after⟩ := parts
    rw [hcut] at h
    obtain ⟨rfl, rfl⟩ := Prod.mk.inj h
    have htext := append_of_cutAt?_eq_some hcut
    cases before with
    | nil =>
      -- the separator begins with a blank
      have hblank := (List.cons.inj htext).1
      rw [hblank] at hfirst
      exact absurd hfirst (by decide)
    | cons c front =>
      obtain rfl : first = c := (List.cons.inj htext).1
      obtain ⟨tail, htail, hend⟩ := trim_cons hfirst front
      obtain ⟨gap, hparts, hgap⟩ := exists_trimEnd_append (first :: front)
      rw [← hend] at hparts
      refine ⟨tail, gap ++ (remarkSeparator ++ after), htail, ?_, ?_⟩
      · calc first :: text = first :: front ++ (remarkSeparator ++ after) := by
              rw [htext, List.append_assoc]
          _ = trim (first :: front) ++ gap ++ (remarkSeparator ++ after) := congrArg (· ++ _) hparts
          _ = trim (first :: front) ++ (gap ++ (remarkSeparator ++ after)) :=
              List.append_assoc _ _ _
      · by_cases hafter : trim after = []
        · rw [hafter]
          exact .blankRemark hgap (trim_eq_nil_iff.mp hafter)
        · rw [if_neg (by simpa using hafter)]
          exact .remark hgap hafter

theorem isWrittenIn_of_activityLine? {cs : List Char} {a : WrittenActivity}
    (h : activityLine? cs = some (.activity a)) : a.IsWrittenIn cs := by
  obtain ⟨time, text, htimed, htime, hsplit, hne, hcolumn⟩ := activityLine?_eq_some_iff.mp h
  obtain ⟨hlength, hdigits, htext, blanks, hblanks, rfl⟩ := timedText?_eq_some_iff.mp htimed
  obtain ⟨hminute, rfl⟩ := TimeOfDay.ofHHMM?_eq_some_iff.mp htime
  obtain ⟨first, tail, rfl, hfirst, hfirstNe, -⟩ := exists_of_isTimedText htext
  obtain ⟨front, rest, hdescription, hparts, hfollows⟩ := exists_of_splitRemark hfirst hsplit
  refine ⟨hminute, trim_description h, hne, ?_, blanks, rest, hblanks, ?_, ?_, hfollows⟩
  · rw [hdescription]
    simpa using hfirstNe
  · rw [hcolumn]
    simp only [List.length_append, hlength]
    omega
  · rw [← hparts]

/-! ### Both ways -/

/-- **Reading an activity line undoes writing it**: a line written of parts that cannot be taken
    for one another is read as just these parts, whatever blanks stand behind the time, unless it
    opens as a remark; and a line that is read as an activity is written of its parts. -/
theorem classify_activity (table : RuleTable) :
    (∀ (a : WrittenActivity) (blanks : List Char), a.IsWritable →
      (∀ c ∈ blanks, isBlank c = true) → a.column = 5 + blanks.length →
      ¬table.remarkLead.toList <+: (a.write blanks).toList →
      classify table (a.write blanks) = .activity a) ∧
    ∀ (line : String) (a : WrittenActivity), classify table line = .activity a →
      a.IsWrittenIn line.toList := by
  constructor
  · intro a blanks h hblanks hcolumn hremark
    exact classify_eq_activity hremark (a.activityLine?_write h hblanks hcolumn)
  · intro line a h
    exact isWrittenIn_of_activityLine? (activityLine?_of_classify h)

/-- Slashes in the description, a separator in the remark, and a separator before no remark. -/
theorem classify_activity_slashes :
    let table : RuleTable := {}
    let time : TimeOfDay := { hour := 9, minute := 30 }
    let a : WrittenActivity :=
      { endTime := time, description := "a //b", remark := some "c // d", column := 7 }
    let bare : WrittenActivity := { a with remark := none }
    let blanks := [' ', '\t']
    a.IsWritable ∧ (∀ c ∈ blanks, isBlank c = true) ∧
      ¬table.remarkLead.toList <+: (a.write blanks).toList ∧
      a.write blanks = "0930 \ta //b // c // d" ∧
      classify table "0930 \ta //b // c // d" = .activity a ∧
      classify table "0930 \ta //b // " = .activity bare ∧
      bare.IsWrittenIn "0930 \ta //b // ".toList := by
  intro table time a bare blanks
  have hdescription : IsDescription a.description.toList :=
    ⟨by decide, by decide, by decide, by decide, by decide, by decide⟩
  have hremark : IsRemark "c // d".toList := ⟨by decide, by decide, by decide⟩
  have hwritable : a.IsWritable := by
    refine ⟨⟨rfl, rfl⟩, hdescription, ?_⟩
    rintro r ⟨⟩
    exact hremark
  have hblanks : ∀ c ∈ blanks, isBlank c = true := List.all_eq_true.mp (by decide)
  have hlead : ¬table.remarkLead.toList <+: (a.write blanks).toList := by decide
  have hline : a.write blanks = "0930 \ta //b // c // d" := by decide
  have hbare : classify table "0930 \ta //b // " = .activity bare := by decide +kernel
  obtain ⟨hread, hwritten⟩ := classify_activity table
  have hactivity := hread a blanks hwritable hblanks rfl hlead
  rw [hline] at hactivity
  exact ⟨hwritable, hblanks, hlead, hline, hactivity, hbare, hwritten _ bare hbare⟩

end Daybook
