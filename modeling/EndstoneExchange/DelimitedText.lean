import Mathlib.Data.List.Basic
import Mathlib.Data.Nat.Digits.Defs

/-!
# Delimited text

UTF-8 text in front of other bytes is recovered when its number of characters is known
or when a character follows it that it does not contain. Decimal numbers contain no
delimiter.
-/
namespace EndstoneExchange.DelimitedText

def utf8 (text : List Char) : List UInt8 := text.flatMap String.utf8EncodeChar

@[simp] theorem utf8_nil : utf8 [] = [] := rfl

@[simp] theorem utf8_cons (c : Char) (text : List Char) :
    utf8 (c :: text) = String.utf8EncodeChar c ++ utf8 text := rfl

theorem utf8_append (text text' : List Char) : utf8 (text ++ text') = utf8 text ++ utf8 text' :=
  List.flatMap_append

/-- The first character is determined by the bytes it starts. -/
theorem utf8Char_inj {c d : Char} {xs ys : List UInt8}
    (h : String.utf8EncodeChar c ++ xs = String.utf8EncodeChar d ++ ys) : c = d ∧ xs = ys := by
  have hdecode : ∀ (c : Char) (xs : List UInt8),
      ByteArray.utf8DecodeChar? (String.utf8EncodeChar c ++ xs).toByteArray 0 = some c := by
    intro c xs
    rw [List.toByteArray_append, ByteArray.utf8DecodeChar?_utf8EncodeChar_append]
  have hsame : c = d := by
    have hc := hdecode c xs
    rw [h, hdecode d ys] at hc
    exact (Option.some.inj hc).symm
  subst hsame
  exact ⟨rfl, List.append_cancel_left h⟩

/-- Text of a known number of characters. -/
theorem utf8_counted {text text' : List Char} {xs ys : List UInt8} (hlength : text.length = text'.length)
    (h : utf8 text ++ xs = utf8 text' ++ ys) : text = text' ∧ xs = ys := by
  induction text generalizing text' with
  | nil =>
    obtain rfl := List.length_eq_zero_iff.mp hlength.symm
    exact ⟨rfl, h⟩
  | cons c text ih =>
    cases text' with
    | nil => simp at hlength
    | cons d text' =>
      rw [utf8_cons, utf8_cons, List.append_assoc, List.append_assoc] at h
      obtain ⟨rfl, hrest⟩ := utf8Char_inj h
      obtain ⟨rfl, hxs⟩ := ih (Nat.succ.inj hlength) hrest
      exact ⟨rfl, hxs⟩

/-- Text up to a character that it does not contain. -/
theorem utf8_delimited {c : Char} {text text' : List Char} {xs ys : List UInt8} (hc : c ∉ text)
    (hc' : c ∉ text') (h : utf8 (text ++ [c]) ++ xs = utf8 (text' ++ [c]) ++ ys) :
    text = text' ∧ xs = ys := by
  induction text generalizing text' with
  | nil =>
    cases text' with
    | nil => exact ⟨rfl, List.append_cancel_left h⟩
    | cons d text' =>
      rw [List.nil_append, List.cons_append, utf8_cons, utf8_cons, List.append_assoc, List.append_assoc] at h
      obtain ⟨rfl, -⟩ := utf8Char_inj h
      exact absurd (List.mem_cons_self ..) hc'
  | cons d text ih =>
    cases text' with
    | nil =>
      rw [List.nil_append, List.cons_append, utf8_cons, utf8_cons, List.append_assoc, List.append_assoc] at h
      obtain ⟨rfl, -⟩ := utf8Char_inj h
      exact absurd (List.mem_cons_self ..) hc
    | cons e text' =>
      rw [List.cons_append, List.cons_append, utf8_cons, utf8_cons, List.append_assoc, List.append_assoc] at h
      obtain ⟨rfl, hrest⟩ := utf8Char_inj h
      obtain ⟨rfl, hxs⟩ := ih (fun hm => hc (List.mem_cons_of_mem _ hm))
        (fun hm => hc' (List.mem_cons_of_mem _ hm)) hrest
      exact ⟨rfl, hxs⟩

private theorem toList_loop (bytes : ByteArray) (i : ℕ) (r : List UInt8) :
    ByteArray.toList.loop bytes i r = r.reverse ++ bytes.data.toList.drop i := by
  have hsize : bytes.data.toList.length = bytes.size := Array.length_toList
  fun_induction ByteArray.toList.loop bytes i r with
  | case1 i r h ih =>
    have hget : bytes.get! i = bytes.data.toList[i] := by simp [ByteArray.get!, h]
    have hlt : i < bytes.data.toList.length := hsize ▸ h
    rw [ih, List.drop_eq_getElem_cons hlt, hget, List.reverse_cons, List.append_assoc]
    rfl
  | case2 i r h =>
    rw [List.drop_eq_nil_of_le (hsize ▸ not_lt.mp h), List.append_nil]

theorem toUTF8_toList (s : String) : s.toUTF8.toList = utf8 s.toList := by
  have hdata : s.toUTF8.toList = s.toUTF8.data.toList := toList_loop _ 0 []
  rw [hdata, String.toUTF8_eq_toByteArray, ← String.utf8Encode_toList]
  exact List.toList_data_toByteArray

section Numbers

theorem not_mem_toDigits {c : Char} (hc : c.isDigit = false) (n : ℕ) : c ∉ Nat.toDigits 10 n := fun hm => by
  have hdigit := Nat.isDigit_of_mem_toDigits (by decide) (by decide) hm
  rw [hc] at hdigit
  cases hdigit

theorem toDigits_inj {m n : ℕ} (h : Nat.toDigits 10 m = Nat.toDigits 10 n) : m = n := by
  rw [← @Nat.ofDigitChars_ten_toDigits m, h, Nat.ofDigitChars_ten_toDigits]

theorem toString_nat (n : ℕ) : (toString n).toList = Nat.toDigits 10 n := by
  rw [Nat.toString_eq_repr, Nat.toList_repr]

theorem toString_int (z : ℤ) : (toString z).toList =
    if 0 ≤ z then Nat.toDigits 10 z.toNat else '-' :: Nat.toDigits 10 (-z).toNat := by
  rw [Int.toString_eq_repr, Int.repr_eq_if]
  split_ifs with h
  · exact Nat.toList_repr
  · rw [String.toList_append, Nat.toList_repr]
    rfl

theorem not_mem_toString_int {c : Char} (hc : c.isDigit = false) (hminus : c ≠ '-') (z : ℤ) :
    c ∉ (toString z).toList := by
  rw [toString_int]
  split_ifs
  · exact not_mem_toDigits hc _
  · rw [List.mem_cons, not_or]
    exact ⟨hminus, not_mem_toDigits hc _⟩

theorem toString_int_inj {y z : ℤ} (h : (toString y).toList = (toString z).toList) : y = z := by
  have hminus : ∀ {m n : ℕ}, Nat.toDigits 10 m ≠ '-' :: Nat.toDigits 10 n := by
    intro m n he
    exact not_mem_toDigits (by decide) m (he ▸ List.mem_cons_self ..)
  rw [toString_int, toString_int] at h
  split_ifs at h with hy hz hz
  · have hsame := toDigits_inj h
    omega
  · exact absurd h hminus
  · exact absurd h.symm hminus
  · have hsame := toDigits_inj (List.cons.inj h).2
    omega

end Numbers

end EndstoneExchange.DelimitedText
