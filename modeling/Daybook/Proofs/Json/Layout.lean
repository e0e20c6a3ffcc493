/-
  Daybook/Proofs/Json/Layout.lean
  ===============================
  **The two layouts are one text with other white space.**  A layout says what
  stands before an item at a level and behind the colon of a field.  `render`
  writes values in a layout; the compact and the pretty text are what it writes
  without any space and with one item a line.
-/
import Daybook.Json.Reader
import Daybook.Json.Writer

namespace Daybook.Json

/-- The white space of a text: before an item at a level or a closing bracket at it, and behind a
    colon. -/
structure Layout where
  gap : Nat → List Char
  colon : List Char
  gap_isSpace : ∀ level, ∀ c ∈ gap level, isSpace c = true
  colon_isSpace : ∀ c ∈ colon, isSpace c = true

namespace Layout

def tight : Layout where
  gap := fun _ => []
  colon := []
  gap_isSpace := by simp
  colon_isSpace := by simp

def wide : Layout where
  gap := fun level => '\n' :: (indentation level).toList
  colon := [' ']
  gap_isSpace := by
    intro level c hc
    rcases List.mem_cons.mp hc with rfl | hc
    · decide
    · rw [indentation, String.toList_ofList] at hc
      rw [List.eq_of_mem_replicate hc]
      decide
  colon_isSpace := by
    intro c hc
    rw [List.mem_singleton.mp hc]
    decide

/-! ### Writing in a layout -/

mutual

def render (y : Layout) (level : Nat) : Json → List Char
  | .null => ['n', 'u', 'l', 'l']
  | .boolean true => ['t', 'r', 'u', 'e']
  | .boolean false => ['f', 'a', 'l', 's', 'e']
  | .integer n => (toString n).toList
  | .decimal literal => literal.toList
  | .string text => '"' :: (text.toList.flatMap escapeChar ++ ['"'])
  | .array [] => ['[', ']']
  | .array (item :: rest) =>
    '[' :: (y.renderItems (level + 1) (item :: rest) ++ (y.gap level ++ [']']))
  | .object [] => ['{', '}']
  | .object (field :: rest) =>
    '{' :: (y.renderFields (level + 1) (field :: rest) ++ (y.gap level ++ ['}']))
  | .garbled => ['n', 'u', 'l', 'l']

/-- The items with commas between them, each standing at `level`. -/
def renderItems (y : Layout) (level : Nat) : List Json → List Char
  | [] => []
  | [item] => y.gap level ++ y.render level item
  | item :: rest => y.gap level ++ y.render level item ++ ',' :: y.renderItems level rest

def renderFields (y : Layout) (level : Nat) : List (String × Json) → List Char
  | [] => []
  | [(name, value)] =>
    y.gap level ++ '"' :: (name.toList.flatMap escapeChar ++ '"' :: ':' :: y.colon) ++
      y.render level value
  | (name, value) :: rest =>
    y.gap level ++ '"' :: (name.toList.flatMap escapeChar ++ '"' :: ':' :: y.colon) ++
      y.render level value ++ ',' :: y.renderFields level rest

end

end Layout

theorem toList_quote (s : String) :
    (quote s).toList = '"' :: (s.toList.flatMap escapeChar ++ ['"']) := by
  simp [quote]

/-! ### The compact text -/

@[simp] theorem Layout.gap_tight (level : Nat) : Layout.tight.gap level = [] := rfl

@[simp] theorem Layout.colon_tight : Layout.tight.colon = [] := rfl

mutual

theorem toList_compact (level : Nat) (value : Json) :
    (compact value).toList = Layout.tight.render level value := by
  match value with
  | .null => rfl
  | .boolean true => rfl
  | .boolean false => rfl
  | .integer n => rfl
  | .decimal literal => rfl
  | .string text => exact toList_quote text
  | .array [] => rfl
  | .array (item :: rest) =>
    have hitems := toList_compactItems (level + 1) (item :: rest)
    simp only [compact, Layout.render, String.toList_append, hitems, Layout.gap_tight]
    rfl
  | .object [] => rfl
  | .object (field :: rest) =>
    have hfields := toList_compactFields (level + 1) (field :: rest)
    simp only [compact, Layout.render, String.toList_append, hfields, Layout.gap_tight]
    rfl
  | .garbled => rfl

theorem toList_compactItems (level : Nat) (items : List Json) :
    (",".intercalate (compactItems items)).toList = Layout.tight.renderItems level items := by
  match items with
  | [] => rfl
  | [item] =>
    have hitem := toList_compact level item
    simp [compactItems, Layout.renderItems, hitem]
  | item :: next :: rest =>
    have hitem := toList_compact level item
    have hrest := toList_compactItems level (next :: rest)
    rw [compactItems, String.intercalate_cons_of_ne_nil (by simp [compactItems]),
      String.toList_append, hrest]
    simp [Layout.renderItems, hitem]

theorem toList_compactFields (level : Nat) (fields : List (String × Json)) :
    (",".intercalate (compactFields fields)).toList =
      Layout.tight.renderFields level fields := by
  match fields with
  | [] => rfl
  | [(name, value)] =>
    have hvalue := toList_compact level value
    simp [compactFields, Layout.renderFields, hvalue, toList_quote]
  | (name, value) :: next :: rest =>
    have hvalue := toList_compact level value
    have hrest := toList_compactFields level (next :: rest)
    rw [compactFields, String.intercalate_cons_of_ne_nil (by simp [compactFields]),
      String.toList_append, hrest]
    simp [Layout.renderFields, hvalue, toList_quote]

end

/-! ### The pretty text -/

theorem Layout.gap_wide (level : Nat) :
    Layout.wide.gap level = '\n' :: (indentation level).toList := rfl

@[simp] theorem Layout.colon_wide : Layout.wide.colon = [' '] := rfl

/-- Items one a line, with the white space in front of the first one. -/
theorem toList_enclose (opening closing : String) (level : Nat) {items : List String}
    (h : items ≠ []) :
    (enclose opening closing level items).toList =
      opening.toList ++ (Layout.wide.gap (level + 1) ++
        ((",\n" ++ indentation (level + 1)).intercalate items).toList) ++
        (Layout.wide.gap level ++ closing.toList) := by
  cases items with
  | nil => exact absurd rfl h
  | cons item rest =>
    simp only [enclose, String.toList_append, Layout.gap_wide]
    simp

mutual

theorem toList_prettyAt (level : Nat) (value : Json) :
    (prettyAt level value).toList = Layout.wide.render level value := by
  match value with
  | .null => simp [prettyAt, Layout.render]
  | .boolean true => simp [prettyAt, Layout.render]
  | .boolean false => simp [prettyAt, Layout.render]
  | .integer n => rfl
  | .decimal literal => rfl
  | .string text => exact toList_quote text
  | .array [] => simp [prettyAt, prettyItems, enclose, Layout.render]
  | .array (item :: rest) =>
    have hitems := toList_prettyItems (level + 1) (item :: rest) (by simp)
    rw [prettyAt, toList_enclose "[" "]" level (by simp [prettyItems]), hitems]
    rfl
  | .object [] => simp [prettyAt, prettyFields, enclose, Layout.render]
  | .object (field :: rest) =>
    have hfields := toList_prettyFields (level + 1) (field :: rest) (by simp)
    rw [prettyAt, toList_enclose "\x7b" "\x7d" level (by simp [prettyFields]), hfields]
    rfl
  | .garbled => simp [prettyAt, Layout.render]

theorem toList_prettyItems (level : Nat) (items : List Json) (h : items ≠ []) :
    Layout.wide.gap level ++
        ((",\n" ++ indentation level).intercalate (prettyItems level items)).toList =
      Layout.wide.renderItems level items := by
  match items with
  | [] => exact absurd rfl h
  | [item] =>
    have hitem := toList_prettyAt level item
    simp [prettyItems, Layout.renderItems, hitem]
  | item :: next :: rest =>
    have hitem := toList_prettyAt level item
    have hrest := toList_prettyItems level (next :: rest) (by simp)
    rw [prettyItems, String.intercalate_cons_of_ne_nil (by simp [prettyItems]),
      Layout.renderItems, ← hrest]
    · simp [hitem, Layout.gap_wide]
    · simp

theorem toList_prettyFields (level : Nat) (fields : List (String × Json)) (h : fields ≠ []) :
    Layout.wide.gap level ++
        ((",\n" ++ indentation level).intercalate (prettyFields level fields)).toList =
      Layout.wide.renderFields level fields := by
  match fields with
  | [] => exact absurd rfl h
  | [(name, value)] =>
    have hvalue := toList_prettyAt level value
    simp [prettyFields, Layout.renderFields, hvalue, toList_quote]
  | (name, value) :: next :: rest =>
    have hvalue := toList_prettyAt level value
    have hrest := toList_prettyFields level (next :: rest) (by simp)
    rw [prettyFields, String.intercalate_cons_of_ne_nil (by simp [prettyFields]),
      Layout.renderFields, ← hrest]
    · simp [hvalue, toList_quote, Layout.gap_wide]
    · simp

end

end Daybook.Json
