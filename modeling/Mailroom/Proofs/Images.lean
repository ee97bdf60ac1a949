import Mailroom.Command.Execute
import Mailroom.Proofs.Tasks

/-!
# Writing and reading load images

Writing words and reading them back are inverse to each other.  Writing fails on the numbers
that sixteen bits cannot hold and on nothing else, and reading drops at most one byte.

Main definitions:

- `Fits` says that sixteen bits hold a number.

Main results:

- Theorems `Word.ofBytes_low_high`, `Word.low_ofBytes` and `Word.high_ofBytes`: a word and its
  two bytes determine each other.
- Theorem `Image.encode_eq_error_iff`: the first number that does not fit is refused.
- Theorem `Image.decode_bytesOf` and `Image.bytesOf_decode`: the two round trips.
- Theorem `Image.encode_and_decode` joins them.
-/

namespace Mailroom

/-- Sixteen bits hold a number, with its sign. -/
def Fits (value : Int) : Prop :=
  -32768 ≤ value ∧ value ≤ 32767
  deriving Decidable

/-! ## Words and bytes -/

namespace Word

/-- The number of a word fits. -/
theorem fits_val (w : Word) : Fits w.val :=
  ⟨w.least, w.greatest⟩

/-- A number that fits is the number of a word. -/
theorem exists_of_fits {value : Int} (h : Fits value) : ∃ w : Word, w.val = value :=
  ⟨⟨value, h.1, h.2⟩, rfl⟩

/-- A number that does not fit is refused. -/
theorem ofInt?_of_not_fits {value : Int} (h : ¬ Fits value) : ofInt? value = none := by
  rw [ofInt?_eq_none_iff]
  unfold Fits at h
  omega

/-- The low byte has the number modulo 256. -/
theorem toNat_low (w : Word) : (w.low.toNat : Int) = w.val % 256 := by
  have hleast : 0 ≤ w.val % 256 := Int.emod_nonneg _ (by decide)
  have hgreatest : w.val % 256 < 256 := Int.emod_lt_of_pos _ (by decide)
  have hbyte : w.low.toNat = (w.val % 256).toNat % 256 := UInt8.toNat_ofNat'
  omega

/-- The high byte has the rest of the number, modulo 256 again. -/
theorem toNat_high (w : Word) : (w.high.toNat : Int) = w.val / 256 % 256 := by
  have hleast : 0 ≤ w.val / 256 % 256 := Int.emod_nonneg _ (by decide)
  have hgreatest : w.val / 256 % 256 < 256 := Int.emod_lt_of_pos _ (by decide)
  have hbyte : w.high.toNat = (w.val / 256 % 256).toNat % 256 := UInt8.toNat_ofNat'
  omega

/-- The number that two bytes make: from 32768 on it counts as negative. -/
theorem val_ofBytes (low high : UInt8) :
    (ofBytes low high).val =
      if high.toNat < 128 then (low.toNat : Int) + 256 * high.toNat
      else (low.toNat : Int) + 256 * high.toNat - 65536 := by
  unfold ofBytes
  by_cases h : high.toNat < 128
  · rw [dif_pos h, if_pos h]
  · rw [dif_neg h, if_neg h]

/-- A word is read back from its two bytes. -/
@[simp] theorem ofBytes_low_high (w : Word) : ofBytes w.low w.high = w := by
  have hlow := w.toNat_low
  have hhigh := w.toNat_high
  have hleast := w.least
  have hgreatest := w.greatest
  apply Word.ext
  rw [val_ofBytes]
  split <;> omega

/-- The low byte of the word that two bytes make is the first of them. -/
@[simp] theorem low_ofBytes (low high : UInt8) : (ofBytes low high).low = low := by
  have hlow := (ofBytes low high).toNat_low
  have hbyte := low.toNat_lt
  rw [val_ofBytes] at hlow
  apply UInt8.toNat_inj.mp
  split at hlow <;> omega

/-- The high byte of the word that two bytes make is the second of them. -/
@[simp] theorem high_ofBytes (low high : UInt8) : (ofBytes low high).high = high := by
  have hhigh := (ofBytes low high).toNat_high
  have hlowByte := low.toNat_lt
  have hhighByte := high.toNat_lt
  rw [val_ofBytes] at hhigh
  apply UInt8.toNat_inj.mp
  split at hhigh <;> omega

end Word

/-! ## Sequences -/

namespace Image

/-- The bytes of some words. -/
def bytesOf (words : List Word) : List UInt8 :=
  words.flatMap bytesOfWord

/-- Every word takes two bytes. -/
@[simp] theorem length_bytesOf (words : List Word) :
    (bytesOf words).length = 2 * words.length := by
  induction words with
  | nil => rfl
  | cons w rest ih =>
    rw [bytesOf, List.flatMap_cons, List.length_append, ← bytesOf, ih, List.length_cons]
    simp only [bytesOfWord, List.length_cons, List.length_nil]
    omega

/-- Words are read back from their bytes. -/
@[simp] theorem decode_bytesOf (words : List Word) : decode (bytesOf words) = words := by
  induction words with
  | nil => rfl
  | cons w rest ih =>
    have hcons : bytesOf (w :: rest) = w.low :: w.high :: bytesOf rest := rfl
    rw [hcons, decode, ih, Word.ofBytes_low_high]

/-- The numbers of words are written as the bytes of the words. -/
theorem encodeFrom_map_val (index : Nat) (words : List Word) :
    encodeFrom index (words.map (·.val)) = .ok (bytesOf words) := by
  induction words generalizing index with
  | nil => rfl
  | cons w rest ih =>
    rw [List.map_cons, encodeFrom, Word.ofInt?_val]
    simp only [ih]
    rfl

/-- Numbers that all fit are the numbers of words. -/
theorem exists_words_of_fits {values : List Int} (h : ∀ v ∈ values, Fits v) :
    ∃ words : List Word, words.map (·.val) = values := by
  induction values with
  | nil => exact ⟨[], rfl⟩
  | cons v rest ih =>
    obtain ⟨w, hw⟩ := Word.exists_of_fits (h v List.mem_cons_self)
    obtain ⟨words, hwords⟩ := ih fun u hu => h u (List.mem_cons_of_mem _ hu)
    exact ⟨w :: words, by rw [List.map_cons, hw, hwords]⟩

/-- A number that does not fit, behind numbers that do, is refused with its index. -/
theorem encodeFrom_of_not_fits {index : Nat} {before : List Int} {v : Int}
    (hbefore : ∀ u ∈ before, Fits u) (hv : ¬ Fits v) (after : List Int) :
    encodeFrom index (before ++ v :: after) = .error ⟨index + before.length, v⟩ := by
  induction before generalizing index with
  | nil =>
    rw [List.nil_append, encodeFrom, Word.ofInt?_of_not_fits hv]
    rfl
  | cons u before ih =>
    obtain ⟨w, rfl⟩ := Word.exists_of_fits (hbefore u List.mem_cons_self)
    have hrest := @ih (index + 1) fun x hx => hbefore x (List.mem_cons_of_mem _ hx)
    have hindex : index + 1 + before.length = index + (before.length + 1) := by omega
    rw [List.cons_append, encodeFrom, Word.ofInt?_val]
    simp only [hrest, hindex, List.length_cons]
    rfl

/-- All numbers fit, or there is a first one that does not. -/
theorem fits_or_first (values : List Int) :
    (∀ v ∈ values, Fits v) ∨ ∃ before v after, values = before ++ v :: after ∧
      (∀ u ∈ before, Fits u) ∧ ¬ Fits v := by
  induction values with
  | nil => exact .inl (List.forall_mem_nil _)
  | cons v rest ih =>
    by_cases hv : Fits v
    · rcases ih with hall | ⟨before, u, after, rfl, hbefore, hu⟩
      · exact .inl (List.forall_mem_cons.mpr ⟨hv, hall⟩)
      · exact .inr ⟨v :: before, u, after, rfl, List.forall_mem_cons.mpr ⟨hv, hbefore⟩, hu⟩
    · exact .inr ⟨[], v, rest, rfl, List.forall_mem_nil _, hv⟩

/-- Numbers that all fit are written in two bytes each, and read back from them. -/
theorem encode_of_fits {values : List Int} (h : ∀ v ∈ values, Fits v) :
    ∃ bytes, encode values = .ok bytes ∧ bytes.length = 2 * values.length ∧
      (decode bytes).map (·.val) = values := by
  obtain ⟨words, rfl⟩ := exists_words_of_fits h
  refine ⟨bytesOf words, encodeFrom_map_val 0 words, ?_, ?_⟩
  · rw [length_bytesOf, List.length_map]
  · rw [decode_bytesOf]

/-- The first number that does not fit is refused, and no other one. -/
theorem encode_eq_error_iff {values : List Int} {e : NotAWord} :
    encode values = .error e ↔ ∃ before after, values = before ++ e.value :: after ∧
      e.index = before.length ∧ (∀ u ∈ before, Fits u) ∧ ¬ Fits e.value := by
  constructor
  · intro hrefused
    rcases fits_or_first values with hall | ⟨before, v, after, rfl, hbefore, hv⟩
    · obtain ⟨bytes, hbytes, -⟩ := encode_of_fits hall
      rw [hbytes] at hrefused
      contradiction
    · rw [encode, encodeFrom_of_not_fits hbefore hv, Nat.zero_add] at hrefused
      cases hrefused
      exact ⟨before, after, rfl, rfl, hbefore, hv⟩
  · rintro ⟨before, after, rfl, hindex, hbefore, hvalue⟩
    rw [encode, encodeFrom_of_not_fits hbefore hvalue, Nat.zero_add, ← hindex]

/-- The words of some bytes take these bytes, without a last one that has no partner. -/
theorem bytesOf_decode (bytes : List UInt8) :
    (decode bytes).length = bytes.length / 2 ∧
      bytesOf (decode bytes) = if bytes.length % 2 = 0 then bytes else bytes.dropLast := by
  -- the bytes go in pairs
  induction bytes using decode.induct with
  | case1 low high rest ih =>
    obtain ⟨hlength, hbytes⟩ := ih
    have hparity : (low :: high :: rest).length % 2 = rest.length % 2 := by
      rw [List.length_cons, List.length_cons]
      omega
    have hcons : bytesOf (decode (low :: high :: rest)) =
        low :: high :: bytesOf (decode rest) := by
      rw [decode, bytesOf, List.flatMap_cons, bytesOfWord, Word.low_ofBytes,
        Word.high_ofBytes]
      rfl
    constructor
    · simp only [decode, List.length_cons, hlength]
      omega
    · rw [hcons, hbytes, hparity]
      cases rest with
      | nil => rfl
      | cons next rest => split <;> rfl
  | case2 byte => exact ⟨(Nat.div_eq_of_lt Nat.one_lt_two).symm, rfl⟩
  | case3 => exact ⟨rfl, rfl⟩

end Image

/-! ## Reading an image file -/

/-- Reading a load image gives its words, and a warning exactly when the last byte has no
partner. -/
theorem does_imageWords (path : String) (bytes : Bytes) (ws : Workspace) :
    Task.Does (imageWords path bytes) ws (.ok (Image.decode bytes)) ws
      (if bytes.length % 2 = 0 then [] else [.oddImage bytes.length]) := by
  have hread : Task.Does (do
      Task.notify [.imageRead (Image.decode bytes).length path]
      return Image.decode bytes) ws (.ok (Image.decode bytes)) ws [] :=
    (Task.does_notify _ ws).bind (Task.does_pure _ ws)
  have hodd : Image.isOdd bytes = true ↔ ¬ bytes.length % 2 = 0 :=
    beq_iff_eq.trans Nat.mod_two_ne_zero.symm
  unfold imageWords
  split
  next h =>
    rw [if_neg (hodd.mp h)]
    exact (Task.does_notify _ ws).bind hread
  next h =>
    rw [if_pos (Decidable.not_not.mp (mt hodd.mpr h))]
    exact hread

/-- Writing refuses a sequence of numbers exactly when one of them does not fit, and then it
names the first one that does not.  Otherwise it gives two bytes for each number, from which
the numbers are read back without a warning.  Reading gives a word for every pair of bytes, and
the words are written as the same bytes again, without a last one that has no partner.  There is
one warning for such a byte, and none otherwise. -/
theorem Image.encode_and_decode :
    (∀ values : List Int,
      ((∃ e, encode values = .error e) ↔ ∃ v ∈ values, ¬ Fits v) ∧
      (∀ e, encode values = .error e ↔ ∃ before after, values = before ++ e.value :: after ∧
        e.index = before.length ∧ (∀ u ∈ before, Fits u) ∧ ¬ Fits e.value) ∧
      ((∀ v ∈ values, Fits v) ↔ ∃ bytes, encode values = .ok bytes ∧
        bytes.length = 2 * values.length ∧ (decode bytes).map (·.val) = values ∧
        ∀ path ws, Task.Does (imageWords path bytes) ws (.ok (decode bytes)) ws [])) ∧
    ∀ bytes : List UInt8,
      (decode bytes).length = bytes.length / 2 ∧ (∀ w ∈ decode bytes, Fits w.val) ∧
      encode ((decode bytes).map (·.val)) =
        .ok (if bytes.length % 2 = 0 then bytes else bytes.dropLast) ∧
      ∀ path ws, Task.Does (imageWords path bytes) ws (.ok (decode bytes)) ws
        (if bytes.length % 2 = 0 then [] else [.oddImage bytes.length]) := by
  refine ⟨fun values => ⟨⟨?_, ?_⟩, fun e => encode_eq_error_iff, ?_, ?_⟩,
    fun bytes => ⟨(bytesOf_decode bytes).1, fun w _ => w.fits_val, ?_, fun path ws => ?_⟩⟩
  · rintro ⟨e, hrefused⟩
    obtain ⟨before, after, rfl, -, -, hvalue⟩ := encode_eq_error_iff.mp hrefused
    exact ⟨e.value, List.mem_append_right _ List.mem_cons_self, hvalue⟩
  · rintro ⟨v, hmem, hv⟩
    rcases fits_or_first values with hall | ⟨before, u, after, rfl, hbefore, hu⟩
    · exact absurd (hall v hmem) hv
    · exact ⟨⟨before.length, u⟩, encode_eq_error_iff.mpr ⟨before, after, rfl, rfl, hbefore, hu⟩⟩
  · intro hall
    obtain ⟨bytes, hbytes, hlength, hback⟩ := encode_of_fits hall
    have heven : bytes.length % 2 = 0 := by omega
    refine ⟨bytes, hbytes, hlength, hback, fun path ws => ?_⟩
    have hread := does_imageWords path bytes ws
    rwa [if_pos heven] at hread
  · rintro ⟨bytes, -, -, hback, -⟩ v hv
    rw [← hback] at hv
    obtain ⟨w, -, rfl⟩ := List.mem_map.mp hv
    exact w.fits_val
  · rw [encode, encodeFrom_map_val, (bytesOf_decode bytes).2]
  · exact does_imageWords path bytes ws

/-- The ends of the range, a number beyond it, and three bytes. -/
theorem Image.encode_and_decode_at_the_ends :
    (∃ bytes, encode [32767, -32768] = .ok bytes ∧ (decode bytes).map (·.val) = [32767, -32768]) ∧
    encode [901, 32768, -40000] = .error ⟨1, 32768⟩ ∧
    encode ((decode [0x85, 0x03, 0x07]).map (·.val)) = .ok [0x85, 0x03] := by
  obtain ⟨hencode, hdecode⟩ := encode_and_decode
  refine ⟨?_, ?_, ?_⟩
  · obtain ⟨bytes, hbytes, -, hback, -⟩ := (hencode [32767, -32768]).2.2.mp (by decide)
    exact ⟨bytes, hbytes, hback⟩
  · exact ((hencode [901, 32768, -40000]).2.1 ⟨1, 32768⟩).mpr
      ⟨[901], [-40000], rfl, rfl, by decide, by decide⟩
  · exact (hdecode [0x85, 0x03, 0x07]).2.2.1

end Mailroom
