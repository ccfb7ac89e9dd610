import SocialNetwork.Lib.Tokens

/-!
# UTF-8

`bytes` encodes a string, and `IsUtf8` holds of the texts that are the encoding of one. An
ASCII byte in such a text is a character by itself, so the pieces between white space are
encodings too (`IsUtf8.of_mem_tokens`).

A `Utf8Decoder` gives encoded strings back. What it makes of other texts is left open, as
decoders replace or drop what they cannot read; `replacing` is one that replaces. `read`
skips a byte order mark first, so the texts that survive being read and encoded again are the
encodings without a mark (`bytes_read_iff`).
-/

namespace SocialNetwork.Lib

/-! ## Encoding -/

theorem bytes_ofList (cs : List Char) :
    bytes (String.ofList cs) = cs.flatMap String.utf8EncodeChar := by
  show (String.ofList cs).toByteArray.data.toList = _
  rw [String.toByteArray_ofList]
  exact List.toList_data_toByteArray

theorem bytes_append (s t : String) : bytes (s ++ t) = bytes s ++ bytes t := by
  show (s ++ t).toByteArray.data.toList = s.toByteArray.data.toList ++ t.toByteArray.data.toList
  rw [String.toByteArray_append, ByteArray.data_append, Array.toList_append]

/-- A character is one ASCII byte, or has none. -/
theorem utf8EncodeChar_cases (c : Char) :
    (∃ b : UInt8, b.toNat < 128 ∧ String.utf8EncodeChar c = [b]) ∨
      ∀ b ∈ String.utf8EncodeChar c, 128 ≤ b.toNat := by
  unfold String.utf8EncodeChar
  dsimp only
  split
  next hone =>
    refine Or.inl ⟨_, ?_, rfl⟩
    rw [UInt8.toNat_ofNat']
    omega
  next =>
    right
    have hmax := c.val.toNat_lt
    split
    · simp only [List.mem_cons, List.not_mem_nil, or_false, forall_eq_or_imp, forall_eq,
        UInt8.toNat_ofNat']
      omega
    · split
      · simp only [List.mem_cons, List.not_mem_nil, or_false, forall_eq_or_imp, forall_eq,
          UInt8.toNat_ofNat']
        omega
      · simp only [List.mem_cons, List.not_mem_nil, or_false, forall_eq_or_imp, forall_eq,
          UInt8.toNat_ofNat']
        omega

/-- The text encodes a string. -/
def IsUtf8 (t : Text) : Prop := ∃ s, bytes s = t

theorem isUtf8_bytes (s : String) : IsUtf8 (bytes s) := ⟨s, rfl⟩

theorem IsUtf8.append {t u : Text} (ht : IsUtf8 t) (hu : IsUtf8 u) : IsUtf8 (t ++ u) := by
  obtain ⟨s, rfl⟩ := ht
  obtain ⟨s', rfl⟩ := hu
  exact ⟨s ++ s', bytes_append s s'⟩

theorem isUtf8_iff {t : Text} : IsUtf8 t ↔ t.toByteArray.IsValidUTF8 := by
  constructor
  · rintro ⟨s, rfl⟩
    have hsame : (bytes s).toByteArray = s.toByteArray :=
      ByteArray.ext (Array.toList_inj.mp List.toList_data_toByteArray)
    rw [hsame]
    exact s.isValidUTF8
  · intro h
    exact ⟨⟨_, h⟩, List.toList_data_toByteArray⟩

instance (t : Text) : Decidable (IsUtf8 t) := decidable_of_iff _ isUtf8_iff.symm

/-- ASCII texts encode themselves. -/
theorem isUtf8_of_ascii {t : Text} (h : ∀ b ∈ t, b.toNat < 128) : IsUtf8 t := by
  induction t with
  | nil => exact ⟨"", rfl⟩
  | cons b t ih =>
    rw [List.forall_mem_cons] at h
    have hb : IsUtf8 [b] := by
      refine ⟨String.ofList [Char.ofUInt8 b], ?_⟩
      have hsize : (Char.ofUInt8 b).utf8Size = 1 := by
        rw [Char.utf8Size_eq_one_iff, UInt32.le_iff_toNat_le]
        exact Nat.le_of_lt_succ h.1
      have hval : (Char.ofUInt8 b).val = b.toUInt32 := rfl
      rw [bytes_ofList, List.flatMap_singleton, String.utf8EncodeChar_eq_singleton hsize, hval,
        UInt8.toUInt8_toUInt32]
    exact hb.append (ih h.2)

theorem isUtf8_intText (n : Int) : IsUtf8 (intText n) := by
  refine isUtf8_of_ascii fun b hb => ?_
  rcases mem_intText hb with rfl | hdigit
  · decide
  · unfold isDigit at hdigit
    rw [Bool.and_eq_true, decide_eq_true_eq, decide_eq_true_eq] at hdigit
    omega

/-! ## Words -/

section

variable {p : UInt8 → Bool}

theorem splitOnP_append {w : Text} (hw : ∀ b ∈ w, p b = false) (t : Text) :
    (w ++ t).splitOnP p = (t.splitOnP p).modifyHead (w ++ ·) := by
  induction w with
  | nil => exact (congrFun List.modifyHead_id _).symm
  | cons b w ih =>
    rw [List.forall_mem_cons] at hw
    rw [List.cons_append, List.splitOnP_cons_eq_if_modifyHead, hw.1, if_neg Bool.false_ne_true,
      ih hw.2, List.modifyHead_modifyHead]
    rfl

/-- **What ASCII bytes separate is encoded too**, by induction on the characters. -/
theorem IsUtf8.of_mem_splitOnP (hp : ∀ b, p b = true → b.toNat < 128) {t w : Text}
    (ht : IsUtf8 t) (hw : w ∈ t.splitOnP p) : IsUtf8 w := by
  obtain ⟨s, rfl⟩ := ht
  rw [← String.ofList_toList (s := s), bytes_ofList] at hw
  generalize s.toList = cs at hw
  induction cs generalizing w with
  | nil => exact ⟨"", (List.mem_singleton.mp hw).symm⟩
  | cons c cs ih =>
    have hchar : IsUtf8 (String.utf8EncodeChar c) :=
      ⟨String.ofList [c], by rw [bytes_ofList, List.flatMap_singleton]⟩
    -- within a character the text is not cut
    have hwhole (hno : ∀ b ∈ String.utf8EncodeChar c, p b = false) : IsUtf8 w := by
      rw [List.flatMap_cons, splitOnP_append hno] at hw
      cases hpieces : (cs.flatMap String.utf8EncodeChar).splitOnP p with
      | nil => exact absurd hpieces (List.splitOnP_ne_nil _ _)
      | cons first more =>
        rw [hpieces, List.modifyHead_cons, List.mem_cons] at hw
        rcases hw with rfl | hw
        · exact hchar.append (ih (hpieces ▸ List.mem_cons_self ..))
        · exact ih (hpieces ▸ List.mem_cons_of_mem _ hw)
    rcases utf8EncodeChar_cases c with ⟨b, hb, hone⟩ | hhigh
    · cases hpb : p b with
      | true =>
        rw [List.flatMap_cons, hone, List.singleton_append, List.splitOnP_cons_eq_if_modifyHead,
          if_pos hpb, List.mem_cons] at hw
        rcases hw with rfl | hw
        · exact ⟨"", rfl⟩
        · exact ih hw
      | false =>
        refine hwhole fun b' hb' => ?_
        rw [hone, List.mem_singleton] at hb'
        rwa [hb']
    · refine hwhole fun b hb => ?_
      rw [← Bool.not_eq_true]
      intro hpb
      have := hp b hpb
      have := hhigh b hb
      omega

end

theorem IsUtf8.of_mem_tokens {t w : Text} (ht : IsUtf8 t) (hw : w ∈ tokens t) : IsUtf8 w := by
  refine ht.of_mem_splitOnP (p := isSpace) (fun b hb => ?_) (List.mem_of_mem_filter hw)
  unfold isSpace at hb
  rw [Bool.or_eq_true, beq_iff_eq, Bool.and_eq_true, decide_eq_true_eq, decide_eq_true_eq] at hb
  rcases hb with rfl | hb
  · decide
  · omega

/-! ## Decoding -/

structure Utf8Decoder where
  decode : Text → String
  decode_bytes : ∀ s, decode (bytes s) = s

/-- The byte order mark, U+FEFF. -/
def mark : Text := [239, 187, 191]

def skipMark (t : Text) : Text := if mark.isPrefixOf t then t.drop mark.length else t

namespace Utf8Decoder

variable (d : Utf8Decoder)

/-- Decodes a text that may start with a byte order mark. -/
def read (t : Text) : String := d.decode (skipMark t)

/-- A text without mark is read as it is. -/
theorem bytes_read {t : Text} (ht : IsUtf8 t) (hmark : ¬ mark <+: t) : bytes (d.read t) = t := by
  obtain ⟨s, rfl⟩ := ht
  unfold read skipMark
  rw [if_neg (by rwa [List.isPrefixOf_iff_prefix]), d.decode_bytes]

/-- The mark is lost. -/
theorem bytes_read_mark {t : Text} (ht : IsUtf8 (mark ++ t)) : bytes (d.read (mark ++ t)) = t := by
  have hrest : IsUtf8 t := by
    rw [isUtf8_iff, List.toByteArray_append] at ht
    exact isUtf8_iff.mpr (ByteArray.isValidUTF8_utf8Encode_singleton_append_iff.mp
      (show ([(Char.ofNat 0xFEFF)].utf8Encode ++ t.toByteArray).IsValidUTF8 from ht))
  obtain ⟨s, rfl⟩ := hrest
  unfold read skipMark
  rw [if_pos (List.isPrefixOf_iff_prefix.mpr (List.prefix_append ..)), List.drop_left,
    d.decode_bytes]

/-- **What survives being read and encoded again.** -/
theorem bytes_read_iff {t : Text} : bytes (d.read t) = t ↔ IsUtf8 t ∧ ¬ mark <+: t := by
  refine ⟨fun h => ⟨⟨_, h⟩, ?_⟩, fun h => d.bytes_read h.1 h.2⟩
  rintro ⟨u, rfl⟩
  rw [d.bytes_read_mark ⟨_, h⟩] at h
  have hlen := congrArg List.length h
  rw [List.length_append] at hlen
  have : mark.length = 3 := rfl
  omega

end Utf8Decoder

/-- Decodes character by character; U+FFFD stands for a byte that starts none. -/
def decodeReplacing : Nat → Text → List Char
  | 0, _ => []
  | _ + 1, [] => []
  | fuel + 1, b :: t =>
    match (b :: t).toByteArray.utf8DecodeChar? 0 with
    | some c => c :: decodeReplacing fuel ((b :: t).drop c.utf8Size)
    | none => '\uFFFD' :: decodeReplacing fuel t

theorem decodeReplacing_encoded {fuel : Nat} {cs : List Char}
    (h : (cs.flatMap String.utf8EncodeChar).length ≤ fuel) :
    decodeReplacing fuel (cs.flatMap String.utf8EncodeChar) = cs := by
  induction cs generalizing fuel with
  | nil =>
    cases fuel with
    | zero => rfl
    | succ fuel => rfl
  | cons c cs ih =>
    have hdecode := @ByteArray.utf8DecodeChar?_utf8EncodeChar_append
      (cs.flatMap String.utf8EncodeChar).toByteArray c
    have hdrop : (String.utf8EncodeChar c ++ cs.flatMap String.utf8EncodeChar).drop c.utf8Size =
        cs.flatMap String.utf8EncodeChar := by
      rw [← String.length_utf8EncodeChar, List.drop_left]
    rw [← List.toByteArray_append] at hdecode
    rw [List.flatMap_cons] at h ⊢
    cases henc : String.utf8EncodeChar c with
    | nil => exact absurd henc String.utf8EncodeChar_ne_nil
    | cons b t =>
      rw [henc, List.cons_append] at h hdecode hdrop
      rw [List.cons_append]
      cases fuel with
      | zero => cases h
      | succ fuel =>
        rw [decodeReplacing, hdecode]
        dsimp only
        rw [hdrop, ih]
        rw [List.length_cons, List.length_append] at h
        omega

/-- The decoder that puts U+FFFD for what it cannot read. -/
def Utf8Decoder.replacing : Utf8Decoder where
  decode t := String.ofList (decodeReplacing t.length t)
  decode_bytes s := by
    have hs : bytes s = s.toList.flatMap String.utf8EncodeChar := by
      rw [← bytes_ofList, String.ofList_toList]
    rw [hs, decodeReplacing_encoded (Nat.le_refl _), String.ofList_toList]

example : bytes (Utf8Decoder.replacing.read [98, 195, 169, 255]) = bytes "bé\uFFFD" := by decide

end SocialNetwork.Lib
