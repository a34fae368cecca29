import Deadwood.Text.Utf8
import Mathlib.Data.List.Lex

/-!
# Texts and their bytes

A text can be read back from its bytes, and texts are ordered as their bytes are: of two characters,
the greater one has the greater byte where their bytes differ first, and neither has all its bytes
at the front of the other.

## Main definitions

* `Text.FirstDiffers`: two byte lists of which the first is smaller where they differ.

## Main results

* `Text.ofUtf8Lossy_utf8`: a text is read back from its bytes.
* `Text.utf8_lex_iff`: the order of texts is that of their bytes.
-/

namespace Deadwood.Text

/-! ## Reading texts back -/

/-- Bytes are listed from a position on, behind those that were listed before. -/
theorem bytesFrom_eq (bytes : ByteArray) (i : Nat) (listed : List UInt8) :
    ByteArray.toList.loop bytes i listed = listed.reverse ++ bytes.data.toList.drop i := by
  fun_induction ByteArray.toList.loop bytes i listed with
  | case1 i listed h ih =>
    have hi : i < bytes.data.toList.length := by simpa using h
    have hbyte : bytes.get! i = bytes.data.toList[i] := getElem!_pos bytes.data i h
    rw [ih, List.drop_eq_getElem_cons hi, hbyte]
    simp
  | case2 i listed h =>
    have hi : bytes.data.toList.length ≤ i := Nat.le_of_not_lt h
    rw [List.drop_eq_nil_of_le hi, List.append_nil]

theorem utf8_eq (s : String) : utf8 s = s.toByteArray.data.toList := by
  simp [utf8, ByteArray.toList, bytesFrom_eq]

@[simp] theorem ofUtf8Lossy_utf8 (s : String) : ofUtf8Lossy (utf8 s) = s := by
  have hbytes : (⟨(utf8 s).toArray⟩ : ByteArray) = s.toByteArray := by
    simp [utf8_eq]
  have hvalid : s.toByteArray.IsValidUTF8 := s.isValidUTF8
  simp [ofUtf8Lossy, ofUtf8?, hbytes, String.fromUTF8?, hvalid, String.fromUTF8]

/-- The bytes of a text are those of its characters. -/
theorem utf8_eq_flatMap (s : String) : utf8 s = s.toList.flatMap String.utf8EncodeChar := by
  rw [utf8_eq, ← String.utf8Encode_toList, List.utf8Encode, List.toList_data_toByteArray]

/-! ## Order -/

/-- The first list has the smaller byte where the lists differ first. -/
def FirstDiffers : Bytes → Bytes → Prop
  | a :: as, b :: bs => a < b ∨ a = b ∧ FirstDiffers as bs
  | _, _ => False

theorem not_firstDiffers_nil (bs : Bytes) : ¬ FirstDiffers [] bs :=
  id

theorem FirstDiffers.lex_append {as bs : Bytes} (h : FirstDiffers as bs) (cs ds : Bytes) :
    List.Lex (· < ·) (as ++ cs) (bs ++ ds) := by
  induction as generalizing bs with
  | nil => exact h.elim
  | cons a as ih =>
    cases bs with
    | nil => exact h.elim
    | cons b bs =>
      rcases h with h | ⟨rfl, h⟩
      · exact .rel h
      · exact .cons (ih h)

/-- Bytes are compared as the numbers that they stand for. -/
theorem firstDiffers_ofNat {m n : Nat} (hm : m < 256) (hn : n < 256) {as bs : Bytes} :
    FirstDiffers (UInt8.ofNat m :: as) (UInt8.ofNat n :: bs) ↔
      m < n ∨ m = n ∧ FirstDiffers as bs := by
  have hnat : ∀ {k : Nat}, k < 256 → (UInt8.ofNat k).toNat = k := by
    intro k hk
    rw [UInt8.toNat_ofNat', Nat.mod_eq_of_lt hk]
  rw [FirstDiffers, UInt8.lt_iff_toNat_lt, ← UInt8.toNat_inj, hnat hm, hnat hn]

/-- The bytes of characters differ first where the smaller character has the smaller byte. -/
theorem firstDiffers_utf8EncodeChar {c d : Char} (h : c < d) :
    FirstDiffers (String.utf8EncodeChar c) (String.utf8EncodeChar d) := by
  have hlt : c.val.toNat < d.val.toNat := h
  have hd : d.val.toNat < 0x110000 := by
    rcases d.valid with h | h <;> omega
  unfold String.utf8EncodeChar
  generalize c.val.toNat = v at hlt
  generalize d.val.toNat = w at hlt hd
  have hdigit : ∀ {m n : Nat}, m < n → m / 64 < n / 64 ∨ m / 64 = n / 64 ∧ m % 64 < n % 64 := by
    intro m n h
    omega
  have hdiv : ∀ n : Nat, n / 64 / 64 = n / 4096 ∧ n / 4096 / 64 = n / 262144 :=
    fun n => ⟨Nat.div_div_eq_div_mul n 64 64, Nat.div_div_eq_div_mul n 4096 64⟩
  -- characters of fewer bytes have smaller first bytes; otherwise the bytes are digits to base 64,
  -- of which the first ones that differ decide
  have hdiffer : v / 262144 < w / 262144 ∨ v / 262144 = w / 262144 ∧
      (v / 4096 % 64 < w / 4096 % 64 ∨ v / 4096 % 64 = w / 4096 % 64 ∧
        (v / 64 % 64 < w / 64 % 64 ∨ v / 64 % 64 = w / 64 % 64 ∧ v % 64 < w % 64)) := by
    rcases hdigit hlt with h | h
    · rcases hdigit h with h | h
      · rw [(hdiv v).1, (hdiv w).1] at h
        rcases hdigit h with h | h <;> rw [(hdiv v).2, (hdiv w).2] at h
        · exact .inl h
        · exact .inr ⟨h.1, .inl h.2⟩
      · rw [(hdiv v).1, (hdiv w).1] at h
        refine .inr ⟨?_, .inr ⟨by rw [h.1], .inl h.2⟩⟩
        rw [← (hdiv v).2, ← (hdiv w).2, h.1]
    · refine .inr ⟨?_, .inr ⟨?_, .inr ⟨by rw [h.1], h.2⟩⟩⟩
      · rw [← (hdiv v).2, ← (hdiv w).2, ← (hdiv v).1, ← (hdiv w).1, h.1]
      · rw [← (hdiv v).1, ← (hdiv w).1, h.1]
  have htop : v / 262144 % 8 = v / 262144 ∧ w / 262144 % 8 = w / 262144 := by omega
  dsimp only
  split_ifs <;> try omega
  all_goals
    simp (disch := omega) only [firstDiffers_ofNat, not_firstDiffers_nil]
    omega

/-- Texts are ordered as their bytes are. -/
theorem utf8_lex_iff (s t : String) : List.Lex (· < ·) (utf8 s) (utf8 t) ↔ s < t := by
  have hforward : ∀ cs ds : List Char, List.Lex (· < ·) cs ds →
      List.Lex (· < ·) (cs.flatMap String.utf8EncodeChar) (ds.flatMap String.utf8EncodeChar) := by
    intro cs ds h
    induction h with
    | @nil d ds =>
      obtain ⟨b, bs, hbytes⟩ := List.exists_cons_of_ne_nil (String.utf8EncodeChar_ne_nil (c := d))
      rw [List.flatMap_cons, List.flatMap_nil, hbytes]
      exact .nil
    | @cons c cs ds _ ih =>
      rw [List.flatMap_cons, List.flatMap_cons]
      exact List.Lex.append_left _ ih _
    | @rel c cs d ds h =>
      rw [List.flatMap_cons, List.flatMap_cons]
      exact (firstDiffers_utf8EncodeChar h).lex_append _ _
  rw [utf8_eq_flatMap, utf8_eq_flatMap]
  refine ⟨fun h => ?_, hforward _ _⟩
  by_contra hnot
  rcases eq_or_ne t s with rfl | hne
  · exact irrefl_of (List.Lex (· < ·)) _ h
  · have hlt : t < s := Std.lt_of_le_of_ne (String.not_lt.mp hnot) hne
    exact asymm_of (List.Lex (· < ·)) (hforward _ _ hlt) h

end Deadwood.Text
