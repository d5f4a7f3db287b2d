/-
Reading UTF-8 undoes writing it. The bytes of a character are taken one by one, and only the last of
them completes it; so the bytes of a text are read back as its characters, wherever the pieces are
cut in which they are read.
-/
import MailMerge.Text.Utf8

namespace MailMerge.Text.Utf8

/-! ## The bytes of a text -/

theorem byteArray_loop_eq (bytes : ByteArray) (i : Nat) (taken : List UInt8) :
    ByteArray.toList.loop bytes i taken = taken.reverse ++ bytes.data.toList.drop i := by
  fun_induction ByteArray.toList.loop bytes i taken with
  | case1 i taken h ih =>
    have hi : i < bytes.data.toList.length := by simpa using h
    rw [ih, List.drop_eq_getElem_cons hi]
    simp [ByteArray.get!, h]
  | case2 i taken h =>
    rw [List.drop_eq_nil_of_le (by simpa using Nat.le_of_not_lt h)]
    simp

/-- The bytes of a text are those of its characters. -/
theorem toList_toUTF8 (text : String) :
    text.toUTF8.toList = text.toList.flatMap String.utf8EncodeChar := by
  have hbytes : text.toUTF8.data.toList = text.toList.flatMap String.utf8EncodeChar := by
    rw [String.toUTF8_eq_toByteArray, ← String.utf8Encode_toList, List.utf8Encode,
      List.toList_data_toByteArray]
  rw [ByteArray.toList, byteArray_loop_eq, hbytes]
  rfl

/-! ## What bytes amount to -/

section

variable {a b c d : UInt8}

theorem classify_two (h : acceptsSecond a b = true) (ha : a < 0xE0) :
    classify [a, b] = .complete (Char.ofNat (a.toNat % 32 * 64 + b.toNat % 64)) := by
  rw [classify, h, if_neg (by simp), if_pos ha]
  rfl

theorem classify_two_unfinished (h : acceptsSecond a b = true) (ha : ¬ a < 0xE0) :
    classify [a, b] = .unfinished := by
  rw [classify, h, if_neg (by simp), if_neg ha]

theorem classify_three (h : beginsSurrogate a b = false) (hc : isTail c = true) (ha : a < 0xF0) :
    classify [a, b, c] = .complete
      (Char.ofNat ((a.toNat % 16 * 64 + b.toNat % 64) * 64 + c.toNat % 64)) := by
  rw [classify, h, hc, if_neg (by simp), if_neg (by simp), if_pos ha]
  rfl

theorem classify_three_unfinished (h : beginsSurrogate a b = false) (hc : isTail c = true)
    (ha : ¬ a < 0xF0) : classify [a, b, c] = .unfinished := by
  rw [classify, h, hc, if_neg (by simp), if_neg (by simp), if_neg ha]

theorem classify_four (hd : isTail d = true) :
    classify [a, b, c, d] = .complete (Char.ofNat
      (((a.toNat % 8 * 64 + b.toNat % 64) * 64 + c.toNat % 64) * 64 + d.toNat % 64)) := by
  rw [classify, hd, if_neg (by simp)]
  rfl

end

section

variable {m n : Nat}

theorem classify_ascii (hm : m < 0x80) : classify [.ofNat m] = .complete (Char.ofNat m) := by
  have h := UInt8.toNat_ofNat_of_lt' (show m < 256 by omega)
  simp [classify, UInt8.lt_iff_toNat_lt, h, hm]

theorem classify_one_unfinished (hm : 0xC2 ≤ m) (hm' : m < 0xF5) :
    classify [.ofNat m] = .unfinished := by
  have h := UInt8.toNat_ofNat_of_lt' (show m < 256 by omega)
  have hnot : ¬ m < 0x80 ∧ ¬ m < 0xC2 ∧ ¬ 0xF5 ≤ m := by omega
  simp [classify, UInt8.lt_iff_toNat_lt, UInt8.le_iff_toNat_le, h, hnot]

theorem isTail_ofNat (hn : 0x80 ≤ n) (hn' : n < 0xC0) : isTail (.ofNat n) = true := by
  have h := UInt8.toNat_ofNat_of_lt' (show n < 256 by omega)
  simp only [isTail, UInt8.le_iff_toNat_le, h, UInt8.reduceToNat, Bool.and_eq_true,
    decide_eq_true_eq]
  omega

theorem acceptsSecond_ofNat (hm : m < 256) (hn : 0x80 ≤ n) (hn' : n < 0xC0)
    (hlow : m = 0xE0 → 0xA0 ≤ n) (hlow' : m = 0xF0 → 0x90 ≤ n) (hhigh : m = 0xF4 → n < 0x90) :
    acceptsSecond (.ofNat m) (.ofNat n) = true := by
  have hm := UInt8.toNat_ofNat_of_lt' hm
  have h := UInt8.toNat_ofNat_of_lt' (show n < 256 by omega)
  simp only [acceptsSecond, isTail_ofNat hn hn', UInt8.le_iff_toNat_le, UInt8.lt_iff_toNat_lt,
    ne_eq, ← UInt8.toNat_inj, hm, h, UInt8.reduceToNat, Bool.true_and, Bool.and_eq_true,
    Bool.or_eq_true, decide_eq_true_eq]
  omega

theorem beginsSurrogate_ofNat (hm : m < 256) (hn : n < 256) (h : m = 0xED → n < 0xA0) :
    beginsSurrogate (.ofNat m) (.ofNat n) = false := by
  have hm := UInt8.toNat_ofNat_of_lt' hm
  have hn := UInt8.toNat_ofNat_of_lt' hn
  simp only [beginsSurrogate, UInt8.le_iff_toNat_le, ← UInt8.toNat_inj, hm, hn,
    UInt8.reduceToNat, Bool.and_eq_false_iff, decide_eq_false_iff_not]
  omega

end

/-! ## The bytes of a character -/

/-- Bytes that do not make a character yet, nor did when there were fewer of them. -/
inductive Unfinished : List UInt8 → Prop
  | nil : Unfinished []
  | concat {bytes : List UInt8} {b : UInt8} (h : Unfinished bytes)
      (hb : classify (bytes ++ [b]) = .unfinished) : Unfinished (bytes ++ [b])

/-- The last byte completes a character, and none before it does. -/
def Completes (bytes : List UInt8) (c : Char) : Prop :=
  ∃ front last, bytes = front ++ [last] ∧ Unfinished front ∧
    classify (front ++ [last]) = .complete c

section

variable {v : Nat}

theorem completes_one (hv : v < 0x80) : Completes [.ofNat v] (Char.ofNat v) :=
  ⟨[], _, rfl, .nil, classify_ascii hv⟩

theorem completes_two (hv : 0x80 ≤ v) (hv' : v < 0x800) :
    Completes [.ofNat (v / 64 % 32 + 192), .ofNat (v % 64 + 128)] (Char.ofNat v) := by
  have hfirst : v / 64 % 32 + 192 < 256 := by omega
  have hlast : v % 64 + 128 < 256 := by omega
  have haccepts : acceptsSecond (.ofNat (v / 64 % 32 + 192)) (.ofNat (v % 64 + 128)) = true :=
    acceptsSecond_ofNat hfirst (by omega) (by omega) (by omega) (by omega) (by omega)
  have hlt : UInt8.ofNat (v / 64 % 32 + 192) < 0xE0 :=
    (UInt8.ofNat_lt_iff hfirst).2 (show v / 64 % 32 + 192 < 0xE0 by omega)
  refine ⟨[_], _, rfl, .concat .nil (classify_one_unfinished (by omega) (by omega)), ?_⟩
  refine (classify_two haccepts hlt).trans ?_
  rw [UInt8.toNat_ofNat_of_lt' hfirst, UInt8.toNat_ofNat_of_lt' hlast]
  congr 2
  omega

theorem completes_three (hv : 0x800 ≤ v) (hv' : v < 0x10000) (hvalid : v < 0xD800 ∨ 0xDFFF < v) :
    Completes [.ofNat (v / 4096 % 16 + 224), .ofNat (v / 64 % 64 + 128), .ofNat (v % 64 + 128)]
      (Char.ofNat v) := by
  have hfirst : v / 4096 % 16 + 224 < 256 := by omega
  have hsecond : v / 64 % 64 + 128 < 256 := by omega
  have hlast : v % 64 + 128 < 256 := by omega
  have haccepts : acceptsSecond (.ofNat (v / 4096 % 16 + 224)) (.ofNat (v / 64 % 64 + 128)) =
      true :=
    acceptsSecond_ofNat hfirst (by omega) (by omega) (by omega) (by omega) (by omega)
  have hsurrogate : beginsSurrogate (.ofNat (v / 4096 % 16 + 224)) (.ofNat (v / 64 % 64 + 128)) =
      false :=
    beginsSurrogate_ofNat hfirst hsecond (by omega)
  have hge : ¬ UInt8.ofNat (v / 4096 % 16 + 224) < 0xE0 :=
    mt (UInt8.ofNat_lt_iff hfirst).1 (show ¬ v / 4096 % 16 + 224 < 0xE0 by omega)
  have hlt : UInt8.ofNat (v / 4096 % 16 + 224) < 0xF0 :=
    (UInt8.ofNat_lt_iff hfirst).2 (show v / 4096 % 16 + 224 < 0xF0 by omega)
  refine ⟨[_, _], _, rfl,
    .concat (.concat .nil (classify_one_unfinished (by omega) (by omega)))
      (classify_two_unfinished haccepts hge), ?_⟩
  refine (classify_three hsurrogate (isTail_ofNat (by omega) (by omega)) hlt).trans ?_
  rw [UInt8.toNat_ofNat_of_lt' hfirst, UInt8.toNat_ofNat_of_lt' hsecond,
    UInt8.toNat_ofNat_of_lt' hlast]
  congr 2
  omega

theorem completes_four (hv : 0x10000 ≤ v) (hv' : v < 0x110000) :
    Completes [.ofNat (v / 262144 % 8 + 240), .ofNat (v / 4096 % 64 + 128),
      .ofNat (v / 64 % 64 + 128), .ofNat (v % 64 + 128)] (Char.ofNat v) := by
  have hfirst : v / 262144 % 8 + 240 < 256 := by omega
  have hsecond : v / 4096 % 64 + 128 < 256 := by omega
  have hthird : v / 64 % 64 + 128 < 256 := by omega
  have hlast : v % 64 + 128 < 256 := by omega
  have haccepts : acceptsSecond (.ofNat (v / 262144 % 8 + 240)) (.ofNat (v / 4096 % 64 + 128)) =
      true :=
    acceptsSecond_ofNat hfirst (by omega) (by omega) (by omega) (by omega) (by omega)
  have hsurrogate : beginsSurrogate (.ofNat (v / 262144 % 8 + 240))
      (.ofNat (v / 4096 % 64 + 128)) = false :=
    beginsSurrogate_ofNat hfirst hsecond (by omega)
  have hge : ¬ UInt8.ofNat (v / 262144 % 8 + 240) < 0xE0 :=
    mt (UInt8.ofNat_lt_iff hfirst).1 (show ¬ v / 262144 % 8 + 240 < 0xE0 by omega)
  have hge' : ¬ UInt8.ofNat (v / 262144 % 8 + 240) < 0xF0 :=
    mt (UInt8.ofNat_lt_iff hfirst).1 (show ¬ v / 262144 % 8 + 240 < 0xF0 by omega)
  refine ⟨[_, _, _], _, rfl,
    .concat (.concat (.concat .nil (classify_one_unfinished (by omega) (by omega)))
      (classify_two_unfinished haccepts hge))
      (classify_three_unfinished hsurrogate (isTail_ofNat (by omega) (by omega)) hge'), ?_⟩
  refine (classify_four (isTail_ofNat (by omega) (by omega))).trans ?_
  rw [UInt8.toNat_ofNat_of_lt' hfirst, UInt8.toNat_ofNat_of_lt' hsecond,
    UInt8.toNat_ofNat_of_lt' hthird, UInt8.toNat_ofNat_of_lt' hlast]
  congr 2
  omega

end

theorem completes_encoded (c : Char) : Completes (String.utf8EncodeChar c) c := by
  have hvalid : c.val.toNat < 0xD800 ∨ 0xDFFF < c.val.toNat ∧ c.val.toNat < 0x110000 := c.valid
  have hchar : Char.ofNat c.val.toNat = c := Char.ofNat_toNat c
  unfold String.utf8EncodeChar
  generalize c.val.toNat = v at hvalid hchar ⊢
  rw [← hchar]
  by_cases h₁ : v ≤ 127
  · simpa only [h₁, if_true] using completes_one (by omega)
  by_cases h₂ : v ≤ 2047
  · simpa only [h₁, h₂, if_true, if_false] using completes_two (by omega) (by omega)
  by_cases h₃ : v ≤ 65535
  · simpa only [h₁, h₂, h₃, if_true, if_false] using
      completes_three (by omega) (by omega) (by omega)
  · simpa only [h₁, h₂, h₃, if_false] using completes_four (by omega) (by omega)

/-! ## Whole texts -/

namespace Decoder

theorem foldlM_unfinished {bytes : List UInt8} (h : Unfinished bytes) (decoded : List Char)
    (start : Nat) : bytes.foldlM feed ⟨decoded, [], start⟩ = .ok ⟨decoded, bytes, start⟩ := by
  induction h with
  | nil => rfl
  | @concat bytes b h hb ih =>
    have hfeed : (⟨decoded, bytes, start⟩ : Decoder).feed b = .ok ⟨decoded, bytes ++ [b], start⟩ := by
      rw [feed, hb]
    rw [List.foldlM_append, ih]
    show [b].foldlM feed ⟨decoded, bytes, start⟩ = _
    rw [List.foldlM_cons, hfeed]
    rfl

/-- The bytes of a character add the character. -/
theorem foldlM_encoded (c : Char) (decoded : List Char) (start : Nat) :
    ∃ stop, (String.utf8EncodeChar c).foldlM feed ⟨decoded, [], start⟩ =
      .ok ⟨c :: decoded, [], stop⟩ := by
  obtain ⟨front, last, hbytes, hfront, hlast⟩ := completes_encoded c
  have hfeed : (⟨decoded, front, start⟩ : Decoder).feed last =
      .ok ⟨c :: decoded, [], start + (front ++ [last]).length⟩ := by
    rw [feed, hlast]
  refine ⟨start + (front ++ [last]).length, ?_⟩
  rw [hbytes, List.foldlM_append, foldlM_unfinished hfront]
  show [last].foldlM feed ⟨decoded, front, start⟩ = _
  rw [List.foldlM_cons, hfeed]
  rfl

/-- The bytes of some characters add them all. -/
theorem foldlM_allEncoded (text decoded : List Char) (start : Nat) :
    ∃ stop, (text.flatMap String.utf8EncodeChar).foldlM feed ⟨decoded, [], start⟩ =
      .ok ⟨text.reverse ++ decoded, [], stop⟩ := by
  induction text generalizing decoded start with
  | nil => exact ⟨start, rfl⟩
  | cons c text ih =>
    obtain ⟨middle, hfirst⟩ := foldlM_encoded c decoded start
    obtain ⟨stop, hmore⟩ := ih (c :: decoded) middle
    refine ⟨stop, ?_⟩
    rw [List.flatMap_cons, List.foldlM_append, hfirst]
    refine hmore.trans ?_
    simp

/-- Where the bytes of a character start shows in faults only. -/
theorem foldlM_start {bytes : List UInt8} {decoded decoded' : List Char} {held held' : List UInt8}
    {start stop : Nat}
    (h : bytes.foldlM feed ⟨decoded, held, start⟩ = .ok ⟨decoded', held', stop⟩) (start' : Nat) :
    ∃ stop', bytes.foldlM feed ⟨decoded, held, start'⟩ = .ok ⟨decoded', held', stop'⟩ := by
  induction bytes generalizing decoded held start start' with
  | nil =>
    cases h
    exact ⟨start', rfl⟩
  | cons b bytes ih =>
    rw [List.foldlM_cons] at h ⊢
    unfold feed at h ⊢
    simp only at h ⊢
    split at h
    · exact ih h _
    · exact ih h _
    · cases h

end Decoder

open Decoder

/-- The bytes of a text spell the text. -/
theorem decode_toUTF8 (text : String) : decode text.toUTF8.toList = .ok text.toList := by
  obtain ⟨stop, h⟩ := foldlM_allEncoded text.toList [] 0
  rw [List.append_nil] at h
  have hfeed : text.toUTF8.toList.foldlM feed .empty = .ok ⟨text.toList.reverse, [], stop⟩ := by
    rw [toList_toUTF8]
    exact h
  rw [decode, hfeed]
  exact congrArg Except.ok (List.reverse_reverse _)

/-- Bytes that leave no character unfinished are read in pieces as they are read at once. -/
theorem decodePieces_of_foldlM {bytes : List UInt8} {decoded text : List Char}
    {held : List UInt8} {start stop : Nat}
    (h : bytes.foldlM feed ⟨decoded, held, start⟩ = .ok ⟨text, [], stop⟩) :
    decodePieces ⟨decoded, held, start⟩ bytes = (text.reverse, none) := by
  induction hn : bytes.length using Nat.strongRecOn generalizing bytes decoded held start stop with
  | ind n ih =>
    rw [decodePieces]
    split
    · rename_i hnil
      subst hnil
      cases h
      rfl
    · rename_i hne
      rw [← List.take_append_drop pieceSize bytes, List.foldlM_append] at h
      cases hpiece : (bytes.take pieceSize).foldlM feed ⟨decoded, held, start⟩ with
      | error fault =>
        rw [hpiece] at h
        cases h
      | ok d =>
        rw [hpiece] at h
        obtain ⟨stop', hpiece'⟩ := foldlM_start hpiece 0
        obtain ⟨stop'', hrest⟩ := foldlM_start h stop'
        have hlength : (bytes.drop pieceSize).length < n := by
          have hpos : 0 < bytes.length := List.length_pos_iff.2 hne
          rw [List.length_drop, hn, pieceSize]
          omega
        rw [hpiece']
        exact ih _ hlength hrest rfl

/-- The bytes of a text are read back as the text. -/
theorem decodePieces_toUTF8 (text : String) :
    decodePieces .empty text.toUTF8.toList = (text.toList, none) := by
  obtain ⟨stop, h⟩ := foldlM_allEncoded text.toList [] 0
  rw [List.append_nil] at h
  rw [toList_toUTF8]
  exact (decodePieces_of_foldlM h).trans (by rw [List.reverse_reverse])

end MailMerge.Text.Utf8
