/-
  Daybook/Proofs/Text/Lines.lean
  ==============================
  **A text is what has lines that are text.**  In the encoding of a character a byte
  below 128 stands alone, so neither a line feed nor a carriage return is ever part
  of a longer one, and cutting at them leaves whole characters.  Every line of an
  encoded text can therefore be decoded, and lines that can be decoded make up an
  encoded text (`complete_readLines_iff`): no character is cut by a line feed.
-/
import Daybook.Text.Lines
import Mathlib.Data.List.Basic

namespace Daybook.Text

/-! ### Encoded characters -/

def encode (cs : List Char) : List UInt8 := cs.flatMap String.utf8EncodeChar

theorem encode_cons (c : Char) (cs : List Char) :
    encode (c :: cs) = String.utf8EncodeChar c ++ encode cs := rfl

theorem encode_append (cs ds : List Char) : encode (cs ++ ds) = encode cs ++ encode ds :=
  List.flatMap_append

theorem encode_concat (cs : List Char) (c : Char) :
    encode (cs ++ [c]) = encode cs ++ String.utf8EncodeChar c := by
  simp [encode]

/-- A byte below 128 is a whole character. -/
theorem utf8EncodeChar_of_mem {c : Char} {byte : UInt8} (hmem : byte ∈ String.utf8EncodeChar c)
    (hsmall : byte.toNat < 128) : String.utf8EncodeChar c = [byte] := by
  unfold String.utf8EncodeChar at hmem ⊢
  dsimp only at hmem ⊢
  split at hmem
  next h => rw [if_pos h, List.mem_singleton.mp hmem]
  next h =>
    -- every byte of a longer encoding is at least 128
    exfalso
    split at hmem
    · simp only [List.mem_cons, List.not_mem_nil, or_false] at hmem
      rcases hmem with rfl | rfl <;> simp only [UInt8.toNat_ofNat'] at hsmall <;> omega
    · split at hmem
      · simp only [List.mem_cons, List.not_mem_nil, or_false] at hmem
        rcases hmem with rfl | rfl | rfl <;> simp only [UInt8.toNat_ofNat'] at hsmall <;> omega
      · simp only [List.mem_cons, List.not_mem_nil, or_false] at hmem
        rcases hmem with rfl | rfl | rfl | rfl <;>
          simp only [UInt8.toNat_ofNat'] at hsmall <;> omega

theorem decode?_encode (cs : List Char) : decode? (encode cs) = some (String.ofList cs) := by
  have hbytes : (⟨(encode cs).toArray⟩ : ByteArray) = (String.ofList cs).toByteArray := by
    rw [String.toByteArray_ofList, List.utf8Encode]
    exact ByteArray.ext List.data_toByteArray.symm
  rw [decode?, hbytes, String.fromUTF8?, dif_pos (String.ofList cs).isValidUTF8]
  rfl

theorem eq_encode_of_decode? {line : List UInt8} {s : String} (h : decode? line = some s) :
    line = encode s.toList := by
  unfold decode? String.fromUTF8? at h
  split at h
  next hvalid =>
    obtain rfl := Option.some.inj h
    have hbytes : (⟨line.toArray⟩ : ByteArray) = (String.fromUTF8 _ hvalid).toList.utf8Encode := by
      rw [String.utf8Encode_toList]
      rfl
    rw [List.utf8Encode] at hbytes
    have hlist := congrArg (fun bytes : ByteArray => bytes.data.toList) hbytes
    rwa [List.toList_data_toByteArray] at hlist
  next => cases h

theorem isValidUTF8_iff {bytes : ByteArray} :
    bytes.IsValidUTF8 ↔ ∃ cs, bytes.data.toList = encode cs := by
  constructor
  · rintro ⟨cs, rfl⟩
    exact ⟨cs, List.toList_data_toByteArray⟩
  · rintro ⟨cs, hcs⟩
    refine ⟨cs, ByteArray.ext (Array.toList_inj.mp ?_)⟩
    rw [hcs, List.utf8Encode]
    exact List.toList_data_toByteArray.symm

/-! ### Lines -/

theorem byteLines_append {bytes : List UInt8} (h : lineFeed ∉ bytes) (current rest : List UInt8) :
    byteLines current (bytes ++ rest) = byteLines (bytes.reverse ++ current) rest := by
  induction bytes generalizing current with
  | nil => rfl
  | cons byte others ih =>
    have hbyte : byte ≠ lineFeed := fun heq => h (heq ▸ List.mem_cons_self)
    rw [List.cons_append, byteLines, if_neg hbyte, ih fun hmem => h (List.mem_cons_of_mem _ hmem)]
    simp

theorem exists_dropReturn_encode (cs : List Char) : ∃ ds, dropReturn (encode cs) = encode ds := by
  unfold dropReturn
  split
  next hlast =>
    rcases List.eq_nil_or_concat cs with rfl | ⟨before, c, rfl⟩
    · cases hlast
    · -- the return is the whole of the last character
      rw [List.concat_eq_append, encode_concat] at hlast ⊢
      have hmem : carriageReturn ∈ String.utf8EncodeChar c := by
        rw [List.getLast?_append_of_ne_nil _ String.utf8EncodeChar_ne_nil] at hlast
        exact List.mem_of_getLast? hlast
      rw [utf8EncodeChar_of_mem hmem (by decide), List.dropLast_concat]
      exact ⟨before, rfl⟩
  next => exact ⟨cs, rfl⟩

theorem exists_of_mem_byteLines (before cs : List Char) :
    ∀ line ∈ byteLines (encode before).reverse (encode cs), ∃ ds, line = encode ds := by
  induction cs generalizing before with
  | nil =>
    intro line hline
    refine ⟨before, ?_⟩
    cases hbefore : (encode before).reverse with
    | nil =>
      rw [hbefore] at hline
      cases hline
    | cons byte rest =>
      rw [hbefore] at hline
      have hwhole : line = (byte :: rest).reverse := List.mem_singleton.mp hline
      rw [hwhole, ← hbefore, List.reverse_reverse]
  | cons c rest ih =>
    intro line hline
    rw [encode_cons] at hline
    by_cases hfeed : lineFeed ∈ String.utf8EncodeChar c
    · -- the feed is the whole character, and ends the line
      rw [utf8EncodeChar_of_mem hfeed (by decide), List.singleton_append, byteLines, if_pos rfl,
        List.reverse_reverse] at hline
      rcases List.mem_cons.mp hline with rfl | hline
      · exact exists_dropReturn_encode before
      · exact ih [] line hline
    · rw [byteLines_append hfeed, ← List.reverse_append, ← encode_concat] at hline
      exact ih (before ++ [c]) line hline

/-- A line with the return of its ending is a text when it is one without. -/
theorem exists_encode_of_dropReturn {line : List UInt8} {ds : List Char}
    (h : dropReturn line = encode ds) : ∃ cs, line = encode cs := by
  unfold dropReturn at h
  split at h
  next hlast =>
    obtain ⟨before, rfl⟩ := List.getLast?_eq_some_iff.mp hlast
    rw [List.dropLast_concat] at h
    refine ⟨ds ++ ['\r'], ?_⟩
    rw [h, encode_concat]
    rfl
  next => exact ⟨ds, h⟩

/-- Lines that are encoded texts are the lines of an encoded text. -/
theorem exists_encode_of_byteLines {current rest : List UInt8}
    (h : ∀ line ∈ byteLines current rest, ∃ cs, line = encode cs) :
    ∃ cs, current.reverse ++ rest = encode cs := by
  induction rest generalizing current with
  | nil =>
    cases current with
    | nil => exact ⟨[], rfl⟩
    | cons byte before =>
      rw [List.append_nil]
      exact h _ List.mem_cons_self
  | cons byte rest ih =>
    rw [byteLines] at h
    by_cases hfeed : byte = lineFeed
    · rw [if_pos hfeed] at h
      obtain ⟨ds, hds⟩ := h _ List.mem_cons_self
      obtain ⟨first, hfirst⟩ := exists_encode_of_dropReturn hds
      obtain ⟨others, hothers⟩ := ih fun line hline => h line (List.mem_cons_of_mem _ hline)
      refine ⟨first ++ '\n' :: others, ?_⟩
      rw [hfirst, hfeed, encode_append, encode_cons, ← hothers]
      rfl
    · rw [if_neg hfeed] at h
      obtain ⟨cs, hcs⟩ := ih h
      refine ⟨cs, ?_⟩
      rw [← hcs, List.reverse_cons, List.append_assoc, List.singleton_append]

/-! ### Decoding line by line -/

theorem complete_decodeLines_iff {lines : List (List UInt8)} :
    (decodeLines lines).complete = true ↔ ∀ line ∈ lines, ∃ cs, line = encode cs := by
  induction lines with
  | nil => simp [decodeLines]
  | cons line rest ih =>
    rw [List.forall_mem_cons, ← ih, decodeLines]
    cases hline : decode? line with
    | none =>
      have hbad : ¬ ∃ cs, line = encode cs := by
        rintro ⟨cs, rfl⟩
        rw [decode?_encode] at hline
        cases hline
      simp [hbad]
    | some text => simpa using fun _ => ⟨_, eq_encode_of_decode? hline⟩

/-- Whether some texts are the lines before the first one that is no text. -/
def StopsAfter (lines : List (List UInt8)) (texts : List String) : Prop :=
  ∃ before bad after, lines = before ++ bad :: after ∧ before.map decode? = texts.map some ∧
    decode? bad = none

theorem stopsAfter_of_not_complete {lines : List (List UInt8)}
    (h : (decodeLines lines).complete = false) : StopsAfter lines (decodeLines lines).lines := by
  induction lines with
  | nil => cases h
  | cons line rest ih =>
    rw [decodeLines] at h ⊢
    cases hline : decode? line with
    | none => exact ⟨[], line, rest, rfl, rfl, hline⟩
    | some text =>
      rw [hline] at h
      obtain ⟨before, bad, after, hcut, htexts, hbad⟩ := ih h
      refine ⟨line :: before, bad, after, ?_, ?_, hbad⟩
      · rw [hcut, List.cons_append]
      · rw [List.map_cons, hline, htexts, List.map_cons]

/-- **A file can be read to its end just when its bytes are a text.** -/
theorem complete_readLines_iff {bytes : ByteArray} :
    (readLines bytes).complete = true ↔ bytes.IsValidUTF8 := by
  unfold readLines
  rw [complete_decodeLines_iff, isValidUTF8_iff]
  constructor
  · intro hlines
    exact exists_encode_of_byteLines hlines
  · rintro ⟨cs, hcs⟩
    rw [hcs]
    exact exists_of_mem_byteLines [] cs

theorem complete_readLines_toUTF8 (s : String) : (readLines s.toUTF8).complete = true :=
  complete_readLines_iff.mpr s.isValidUTF8

end Daybook.Text
