/-
  Daybook/Proofs/Json/RoundTrip.lean
  ==================================
  **Reading undoes writing.**  A value without numbers in decimal notation is read
  back from its text, in either layout (`read?_compact`, `read?_pretty`).  The
  induction is on the value; what follows it in the text may be anything that does
  not go on with a number, and the steps that reading may take are bounded by
  twice the length of the text.
-/
import Daybook.Proofs.Json.Layout
import Daybook.Proofs.Json.Tokens
import Mathlib.Data.List.DropRight

namespace Daybook.Json

/-! ### Plain values -/

mutual

/-- Whether a value has a text of its own, and one that only it has: numbers in decimal notation are
    kept as they were written, and garbled values are written as `null`. -/
def isPlain : Json → Bool
  | .null | .boolean _ | .integer _ | .string _ => true
  | .decimal _ | .garbled => false
  | .array items => arePlainItems items
  | .object fields => arePlainFields fields

def arePlainItems : List Json → Bool
  | [] => true
  | item :: rest => isPlain item && arePlainItems rest

def arePlainFields : List (String × Json) → Bool
  | [] => true
  | (_, value) :: rest => isPlain value && arePlainFields rest

end

/-! ### White space -/

theorem skipSpace_append {space : List Char} (h : ∀ c ∈ space, isSpace c = true)
    (rest : List Char) : skipSpace (space ++ rest) = skipSpace rest :=
  List.dropWhile_append_of_pos h

theorem skipSpace_cons {c : Char} (h : isSpace c = false) (rest : List Char) :
    skipSpace (c :: rest) = c :: rest :=
  List.dropWhile_cons_of_neg (by simp [h])

theorem skipSpace_skipSpace (cs : List Char) : skipSpace (skipSpace cs) = skipSpace cs :=
  List.dropWhile_idempotent isSpace cs

theorem takeValue?_skipSpace (fuel : Nat) (cs : List Char) :
    takeValue? fuel (skipSpace cs) = takeValue? fuel cs := by
  cases fuel with
  | zero => rfl
  | succ fuel => rw [takeValue?, takeValue?, skipSpace_skipSpace]

theorem takeValue?_append {space : List Char} (h : ∀ c ∈ space, isSpace c = true) (fuel : Nat)
    (cs : List Char) : takeValue? fuel (space ++ cs) = takeValue? fuel cs := by
  rw [← takeValue?_skipSpace, skipSpace_append h, takeValue?_skipSpace]

theorem takeItems?_skipSpace (fuel : Nat) (before : List Json) (cs : List Char) :
    takeItems? fuel before (skipSpace cs) = takeItems? fuel before cs := by
  cases fuel with
  | zero => rfl
  | succ fuel => rw [takeItems?, takeItems?, takeValue?_skipSpace]

theorem takeFields?_skipSpace (fuel : Nat) (before : List (Option String × Json))
    (cs : List Char) : takeFields? fuel before (skipSpace cs) = takeFields? fuel before cs := by
  cases fuel with
  | zero => rfl
  | succ fuel => rw [takeFields?, takeFields?, skipSpace_skipSpace]

/-! ### How a value begins -/

/-- Whether a character can be the first one of a value. -/
def beginsValue (c : Char) : Bool :=
  c.isDigit || c == '-' || c == '"' || c == '[' || c == '{' || c == 'n' || c == 't' || c == 'f'

theorem exists_toString_eq_cons (n : Int) :
    ∃ c tail, (toString n).toList = c :: tail ∧ (c = '-' ∨ c.isDigit = true) := by
  rw [Int.toString_eq_repr, Int.repr_eq_if]
  split
  next hnonneg =>
    rw [Nat.toList_repr]
    cases hdigits : Nat.toDigits 10 n.toNat with
    | nil => exact absurd hdigits Nat.toDigits_ne_nil
    | cons c tail =>
      have hc : c ∈ Text.digits n.toNat := by
        unfold Text.digits
        rw [hdigits]
        exact List.mem_cons_self
      exact ⟨c, tail, rfl, .inr (Text.isDigit_of_mem_digits hc)⟩
  next hneg =>
    rw [String.toList_append]
    exact ⟨'-', _, rfl, .inl rfl⟩

theorem Layout.exists_render_eq_cons (y : Layout) (level : Nat) {value : Json}
    (h : isPlain value = true) :
    ∃ c tail, y.render level value = c :: tail ∧ beginsValue c = true := by
  match value with
  | .null => exact ⟨_, _, rfl, rfl⟩
  | .boolean true => exact ⟨_, _, rfl, rfl⟩
  | .boolean false => exact ⟨_, _, rfl, rfl⟩
  | .integer n =>
    obtain ⟨c, tail, htext, hc⟩ := exists_toString_eq_cons n
    refine ⟨c, tail, htext, ?_⟩
    rcases hc with rfl | hc
    · rfl
    · simp [beginsValue, hc]
  | .string text => exact ⟨_, _, rfl, rfl⟩
  | .array [] => exact ⟨_, _, rfl, rfl⟩
  | .array (item :: rest) => exact ⟨_, _, rfl, rfl⟩
  | .object [] => exact ⟨_, _, rfl, rfl⟩
  | .object (field :: rest) => exact ⟨_, _, rfl, rfl⟩

theorem ne_of_beginsValue {c : Char} (h : beginsValue c = true) :
    isSpace c = false ∧ c ≠ ']' ∧ c ≠ '}' := by
  refine ⟨?_, ?_, ?_⟩
  · cases hspace : isSpace c with
    | false => rfl
    | true =>
      simp only [isSpace, Bool.or_eq_true, beq_iff_eq] at hspace
      rcases hspace with ((rfl | rfl) | rfl) | rfl <;> exact absurd h (by decide)
  · rintro rfl
    exact absurd h (by decide)
  · rintro rfl
    exact absurd h (by decide)

theorem endsNumber_cons {c : Char} (hc : c ∈ [',', ']', '}']) (rest : List Char) :
    EndsNumber (c :: rest) := by
  intro first hfirst
  obtain rfl : c = first := by simpa using hfirst
  simp only [List.mem_cons, List.not_mem_nil, or_false] at hc
  rcases hc with rfl | rfl | rfl <;> decide

theorem endsNumber_append {space : List Char} (hspace : ∀ c ∈ space, isSpace c = true) {c : Char}
    (hc : c ∈ [',', ']', '}']) (rest : List Char) : EndsNumber (space ++ c :: rest) := by
  cases space with
  | nil => exact endsNumber_cons hc rest
  | cons blank others =>
    intro first hfirst
    obtain rfl : blank = first := by simpa using hfirst
    have hblank := hspace blank List.mem_cons_self
    simp only [isSpace, Bool.or_eq_true, beq_iff_eq] at hblank
    rcases hblank with ((rfl | rfl) | rfl) | rfl <;> decide

/-! ### Reading what was written -/

theorem takeValue?_of_number {c : Char} (hc : c = '-' ∨ c.isDigit = true) (fuel : Nat)
    (tail : List Char) : takeValue? (fuel + 1) (c :: tail) = takeNumber? (c :: tail) := by
  have hspace : isSpace c = false := by
    apply (ne_of_beginsValue _).1
    rcases hc with rfl | hc
    · rfl
    · simp [beginsValue, hc]
  have hne : ∀ other ∈ ['"', '[', '{', 'n', 't', 'f'], c ≠ other := by
    rintro other hother rfl
    rcases hc with rfl | hc
    · exact absurd hother (by decide)
    · simp only [List.mem_cons, List.not_mem_nil, or_false] at hother
      rcases hother with rfl | rfl | rfl | rfl | rfl | rfl <;> exact absurd hc (by decide)
  simp only [List.mem_cons, List.not_mem_nil, or_false, forall_eq_or_imp, forall_eq] at hne
  obtain ⟨hquote, hbracket, hbrace, hn, ht, hf⟩ := hne
  simp [takeValue?, skipSpace_cons hspace, hquote, hbracket, hbrace, hn, ht, hf]

theorem takeValue?_quote (fuel : Nat) (rest : List Char) :
    takeValue? (fuel + 1) ('"' :: rest) =
      (takeString? rest).map fun (text, rest) => (ofText text, rest) := by
  simp [takeValue?, skipSpace_cons (show isSpace '"' = false by decide)]

theorem takeValue?_bracket (fuel : Nat) {c : Char} {rest tail : List Char}
    (h : skipSpace rest = c :: tail) (hc : c ≠ ']') :
    takeValue? (fuel + 1) ('[' :: rest) = takeItems? fuel [] rest := by
  rw [← takeItems?_skipSpace]
  simp [takeValue?, skipSpace_cons (show isSpace '[' = false by decide), h, hc]

theorem takeValue?_brace (fuel : Nat) {c : Char} {rest tail : List Char}
    (h : skipSpace rest = c :: tail) (hc : c ≠ '}') :
    takeValue? (fuel + 1) ('{' :: rest) = takeFields? fuel [] rest := by
  rw [← takeFields?_skipSpace]
  simp [takeValue?, skipSpace_cons (show isSpace '{' = false by decide), h, hc]

/-- The first item of an array stands behind white space. -/
theorem Layout.exists_skipSpace_renderItems (y : Layout) (level : Nat) {item : Json}
    (h : isPlain item = true) (others : List Json) (rest : List Char) :
    ∃ c tail, skipSpace (y.renderItems level (item :: others) ++ rest) = c :: tail ∧ c ≠ ']' := by
  obtain ⟨c, tail, htext, hc⟩ := y.exists_render_eq_cons level h
  obtain ⟨hspace, hbracket, -⟩ := ne_of_beginsValue hc
  have hskip (more : List Char) :
      skipSpace (y.gap level ++ (y.render level item ++ more)) = c :: (tail ++ more) := by
    rw [skipSpace_append (y.gap_isSpace level), htext, List.cons_append, skipSpace_cons hspace]
  cases others with
  | nil =>
    refine ⟨c, tail ++ rest, ?_, hbracket⟩
    rw [← hskip, renderItems, List.append_assoc]
  | cons next others =>
    refine ⟨c, tail ++ (',' :: y.renderItems level (next :: others) ++ rest), ?_, hbracket⟩
    rw [← hskip]
    simp [renderItems]

theorem Layout.exists_skipSpace_renderFields (y : Layout) (level : Nat) (field : String × Json)
    (others : List (String × Json)) (rest : List Char) :
    ∃ tail, skipSpace (y.renderFields level (field :: others) ++ rest) = '"' :: tail := by
  have hskip (more : List Char) :
      skipSpace (y.gap level ++ '"' :: more) = '"' :: more := by
    rw [skipSpace_append (y.gap_isSpace level), skipSpace_cons (by decide)]
  cases others with
  | nil => simp [renderFields, hskip]
  | cons next others => simp [renderFields, hskip]

/-- A field is read.  Behind a comma the next one follows, and a brace completes the object. -/
theorem takeFields?_field {y : Layout} {level : Nat} (name : String) {value : Json} {fuel : Nat}
    (before : List (Option String × Json)) {more rest : List Char}
    (hvalue : takeValue? fuel (y.render level value ++ more) = some (value, more)) :
    let text := y.gap level ++ ('"' :: (name.toList.flatMap escapeChar ++
      '"' :: ':' :: (y.colon ++ (y.render level value ++ more))))
    let fields := (some name, value) :: before
    (skipSpace more = ',' :: rest →
        takeFields? (fuel + 1) before text = takeFields? fuel fields rest) ∧
      (skipSpace more = '}' :: rest →
        takeFields? (fuel + 1) before text = some (ofNamed fields.reverse, rest)) := by
  have hname := takeString?_escaped name (':' :: (y.colon ++ (y.render level value ++ more)))
  constructor
  all_goals
    intro hmore
    rw [takeFields?, skipSpace_append (y.gap_isSpace level), skipSpace_cons (by decide)]
    simp only [hname, skipSpace_cons (show isSpace ':' = false by decide),
      takeValue?_append y.colon_isSpace, hvalue, hmore]

theorem ofNamed_map_some (fields : List (String × Json)) :
    ofNamed (fields.map fun field => (some field.1, field.2)) = .object fields := by
  unfold ofNamed
  rw [mapM_map_eq_some]
  rintro ⟨name, value⟩ -
  rfl

-- A value is at least one character and takes one step for itself; the items of an array and the
-- fields of an object stand one step further in, behind a bracket.  So twice the length is enough
-- for both kinds of steps.
mutual

theorem takeValue?_render (y : Layout) (level : Nat) (value : Json) (h : isPlain value = true)
    {rest : List Char} (hrest : EndsNumber rest) {fuel : Nat}
    (hfuel : 2 * (y.render level value).length ≤ fuel) :
    takeValue? fuel (y.render level value ++ rest) = some (value, rest) := by
  obtain ⟨c, tail, htext, hc⟩ := y.exists_render_eq_cons level h
  obtain ⟨less, rfl⟩ : ∃ less, fuel = less + 1 := by
    rw [htext, List.length_cons] at hfuel
    exact ⟨fuel - 1, by omega⟩
  match value with
  | .null => rfl
  | .boolean true => rfl
  | .boolean false => rfl
  | .integer n =>
    obtain ⟨c, tail, hchars, hc⟩ := exists_toString_eq_cons n
    have hread := takeNumber?_integer hrest n
    rw [hchars, List.cons_append] at hread
    rw [Layout.render, hchars, List.cons_append, takeValue?_of_number hc, hread]
  | .string text =>
    have hread := takeString?_escaped text rest
    simp only [Layout.render, List.cons_append, List.append_assoc, List.nil_append]
    rw [takeValue?_quote, hread]
    rfl
  | .array [] => rfl
  | .array (item :: others) =>
    simp only [Layout.render, List.length_cons, List.length_append, List.length_nil] at hfuel
    have hplain : isPlain item = true := (Bool.and_eq_true_iff.mp h).1
    have hitems := takeItems?_render y (level + 1) (item :: others) (by simp) h
      (y.gap_isSpace level) [] rest (show 2 * _ + 1 ≤ less by omega)
    obtain ⟨first, more, hfirst, hne⟩ := y.exists_skipSpace_renderItems (level + 1) hplain others
      (y.gap level ++ ']' :: rest)
    simp only [Layout.render, List.cons_append, List.append_assoc, List.nil_append]
    rw [takeValue?_bracket less hfirst hne, hitems]
    rfl
  | .object [] => rfl
  | .object (field :: others) =>
    simp only [Layout.render, List.length_cons, List.length_append, List.length_nil] at hfuel
    have hfields := takeFields?_render y (level + 1) (field :: others) (by simp) h
      (y.gap_isSpace level) [] rest (show 2 * _ + 1 ≤ less by omega)
    obtain ⟨more, hfirst⟩ := y.exists_skipSpace_renderFields (level + 1) field others
      (y.gap level ++ '}' :: rest)
    simp only [Layout.render, List.cons_append, List.append_assoc, List.nil_append]
    rw [takeValue?_brace less hfirst (by decide), hfields, List.reverse_nil, List.nil_append,
      ofNamed_map_some]

theorem takeItems?_render (y : Layout) (level : Nat) (items : List Json) (hne : items ≠ [])
    (h : arePlainItems items = true) {space : List Char} (hspace : ∀ c ∈ space, isSpace c = true)
    (before : List Json) (rest : List Char) {fuel : Nat}
    (hfuel : 2 * (y.renderItems level items).length + 1 ≤ fuel) :
    takeItems? fuel before (y.renderItems level items ++ (space ++ ']' :: rest)) =
      some (.array (before.reverse ++ items), rest) := by
  obtain ⟨less, rfl⟩ : ∃ less, fuel = less + 1 := ⟨fuel - 1, by omega⟩
  match items with
  | [] => exact absurd rfl hne
  | [item] =>
    have hends := endsNumber_append hspace (by decide : ']' ∈ [',', ']', '}']) rest
    simp only [arePlainItems, Bool.and_true] at h
    simp only [Layout.renderItems, List.length_append] at hfuel
    have hitem := takeValue?_render y level item h hends (show 2 * _ ≤ less by omega)
    rw [Layout.renderItems, List.append_assoc, takeItems?,
      takeValue?_append (y.gap_isSpace level), hitem]
    dsimp only
    rw [skipSpace_append hspace, skipSpace_cons (by decide)]
    simp
  | item :: next :: others =>
    obtain ⟨hplain, hothers⟩ := Bool.and_eq_true_iff.mp h
    have htext : y.renderItems level (item :: next :: others) =
        y.gap level ++ (y.render level item ++ ',' :: y.renderItems level (next :: others)) := by
      simp [Layout.renderItems]
    rw [htext] at hfuel ⊢
    simp only [List.length_append, List.length_cons] at hfuel
    have hcomma : EndsNumber (',' :: (y.renderItems level (next :: others) ++
        (space ++ ']' :: rest))) := endsNumber_cons (by decide) _
    have hitem := takeValue?_render y level item hplain hcomma (show 2 * _ ≤ less by omega)
    have hrest := takeItems?_render y level (next :: others) (by simp) hothers hspace
      (item :: before) rest (show 2 * _ + 1 ≤ less by omega)
    simp only [List.append_assoc, List.cons_append]
    rw [takeItems?, takeValue?_append (y.gap_isSpace level), hitem]
    dsimp only
    rw [skipSpace_cons (by decide)]
    simp [hrest]

theorem takeFields?_render (y : Layout) (level : Nat) (fields : List (String × Json))
    (hne : fields ≠ []) (h : arePlainFields fields = true) {space : List Char}
    (hspace : ∀ c ∈ space, isSpace c = true) (before : List (Option String × Json))
    (rest : List Char) {fuel : Nat}
    (hfuel : 2 * (y.renderFields level fields).length + 1 ≤ fuel) :
    takeFields? fuel before (y.renderFields level fields ++ (space ++ '}' :: rest)) =
      some (ofNamed (before.reverse ++ fields.map fun field => (some field.1, field.2)), rest) := by
  obtain ⟨less, rfl⟩ : ∃ less, fuel = less + 1 := ⟨fuel - 1, by omega⟩
  match fields with
  | [] => exact absurd rfl hne
  | [(name, value)] =>
    have hends := endsNumber_append hspace (by decide : '}' ∈ [',', ']', '}']) rest
    simp only [arePlainFields, Bool.and_true] at h
    simp only [Layout.renderFields, List.length_append] at hfuel
    have hvalue := takeValue?_render y level value h hends (show 2 * _ ≤ less by omega)
    have hbrace : skipSpace (space ++ '}' :: rest) = '}' :: rest := by
      rw [skipSpace_append hspace, skipSpace_cons (by decide)]
    simp only [Layout.renderFields, List.append_assoc, List.cons_append]
    rw [(takeFields?_field name before hvalue).2 hbrace]
    simp
  | (name, value) :: next :: others =>
    obtain ⟨hplain, hothers⟩ := Bool.and_eq_true_iff.mp h
    have htext : y.renderFields level ((name, value) :: next :: others) =
        y.gap level ++ ('"' :: (name.toList.flatMap escapeChar ++ '"' :: ':' :: (y.colon ++
          (y.render level value ++ ',' :: y.renderFields level (next :: others))))) := by
      simp [Layout.renderFields]
    rw [htext] at hfuel ⊢
    simp only [List.length_append, List.length_cons] at hfuel
    have hcomma : EndsNumber (',' :: (y.renderFields level (next :: others) ++
        (space ++ '}' :: rest))) := endsNumber_cons (by decide) _
    have hvalue := takeValue?_render y level value hplain hcomma (show 2 * _ ≤ less by omega)
    have hrest := takeFields?_render y level (next :: others) (by simp) hothers hspace
      ((some name, value) :: before) rest (show 2 * _ + 1 ≤ less by omega)
    simp only [List.append_assoc, List.cons_append]
    rw [(takeFields?_field name before hvalue).1 (skipSpace_cons (by decide) _)]
    simp [hrest]

end

/-! ### Whole texts -/

theorem read?_of_render (y : Layout) {value : Json} (h : isPlain value = true) {text : String}
    (htext : text.toList = y.render 0 value) : read? text = some value := by
  have hend : EndsNumber [] := by
    intro c hc
    cases hc
  have hread := takeValue?_render y 0 value h hend
    (show _ ≤ 2 * (y.render 0 value).length + 2 by omega)
  rw [List.append_nil] at hread
  rw [read?]
  simp only [htext, hread, Option.bind_eq_bind, Option.bind_some]
  rfl

/-- **A compact text is read as the value that it was written for.** -/
theorem read?_compact {value : Json} (h : isPlain value = true) :
    read? (compact value) = some value :=
  read?_of_render .tight h (toList_compact 0 value)

/-- **So is a pretty text.** -/
theorem read?_pretty {value : Json} (h : isPlain value = true) :
    read? (pretty value) = some value :=
  read?_of_render .wide h (toList_prettyAt 0 value)

theorem read?_write {write : Json → String} (hwrite : write ∈ [compact, pretty]) {value : Json}
    (h : isPlain value = true) : read? (write value) = some value := by
  rcases List.mem_cons.mp hwrite with rfl | hwrite
  · exact read?_compact h
  · obtain rfl := List.mem_singleton.mp hwrite
    exact read?_pretty h

end Daybook.Json
