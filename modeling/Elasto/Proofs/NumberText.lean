import Mathlib
import Elasto.Proofs.Lexing
import Elasto.Float64.Text

/-! # Texts of numbers

Formulas are read byte by byte, and the texts the library writes are ASCII, so a text is read
as its characters. The text of a finite constant is a number, after a minus sign or not: an
integer, digits around a point, or digits with an exponent, each a spelling the lexer takes
whole, since no number goes on over a blank, a bracket or a comma. That the number read is
the constant is an assumption on the shortest-digit writer and the decimal reader, which work
on the bits of doubles: `Float64.ReadsBack` states it for one constant.
-/

namespace Elasto.Formula

theorem toList_eq_data_toList (bs : ByteArray) : bs.toList = bs.data.toList := by
  -- the loop conses the bytes it has passed in reverse, in front of those still to come
  have loop : ∀ i r, i ≤ bs.size →
      ByteArray.toList.loop bs i r = r.reverse ++ bs.data.toList.drop i := by
    intro i r
    fun_induction ByteArray.toList.loop bs i r with
    | case1 i r h ih =>
      intro _
      rw [ih (by omega)]
      have hi : i < bs.data.toList.length := by simpa using h
      rw [List.drop_eq_getElem_cons hi]
      simp [ByteArray.get!, getElem!_pos bs.data i (by simpa using h)]
    | case2 i r h =>
      intro _
      have hnil : bs.data.toList.drop i = [] := by
        simp only [List.drop_eq_nil_iff, Array.length_toList]
        exact Nat.le_of_not_lt h
      simp [hnil]
  exact loop 0 [] (Nat.zero_le _)

theorem bytesAsChars_append (s t : String) :
    bytesAsChars (s ++ t) = bytesAsChars s ++ bytesAsChars t := by
  simp [bytesAsChars, toList_eq_data_toList, String.toByteArray_append, ByteArray.data_append]

theorem bytesAsChars_of_ascii {s : String} (h : ∀ c ∈ s.toList, c.val ≤ 127) :
    bytesAsChars s = s.toList := by
  rw [← String.ofList_toList (s := s)]
  generalize s.toList = l at h
  simp only [bytesAsChars, String.toUTF8_eq_toByteArray, String.toByteArray_ofList,
    toList_eq_data_toList, List.utf8Encode, List.toList_data_toByteArray, String.toList_ofList]
  induction l with
  | nil => rfl
  | cons c l ih =>
    have hc := h c List.mem_cons_self
    rw [List.flatMap_cons, String.utf8EncodeChar_eq_singleton (Char.utf8Size_eq_one_iff.mpr hc),
      List.singleton_append, List.map_cons, ih fun d hd => h d (List.mem_cons_of_mem c hd)]
    have h8 : c.val.toUInt8.toNat = c.toNat := by
      rw [UInt32.toNat_toUInt8, Char.toNat]
      have : c.val.toNat ≤ 127 := by simpa [UInt32.le_iff_toNat_le] using hc
      omega
    rw [h8, Char.ofNat_toNat]

/-- The characters a number is written with: digits, points, exponent marks and signs. -/
def isNumberChar (c : Char) : Bool := isMantissaChar c || c == 'e' || c == 'E' || c == '+' || c == '-'

theorem isNumberChar_of_numberSpelling {w : List Char} (h : NumberSpelling w) :
    ∀ c ∈ w, isNumberChar c := by
  obtain ⟨m, x, rfl, -, hm, hx⟩ := h
  intro c hc
  rcases List.mem_append.mp hc with hc | hc
  · simp [isNumberChar, hm c hc]
  rcases hx with rfl | hx
  · cases hc
  cases x with
  | nil => exact hx.elim
  | cons e r =>
    obtain ⟨he, sign, digits, rfl, hsign, -, hd⟩ := hx
    rcases List.mem_cons.mp hc with rfl | hc
    · rcases he with rfl | rfl <;> rfl
    rcases List.mem_append.mp hc with hc | hc
    · rcases hsign with rfl | rfl | rfl <;> simp_all [isNumberChar]
    · simp [isNumberChar, isMantissaChar, hd c hc]

theorem isIdentChar_of_nameSpelling {w : List Char} (h : NameSpelling w) :
    ∀ c ∈ w, isIdentChar c := by
  cases w with
  | nil => exact h.elim
  | cons c w =>
    obtain ⟨hc, hw⟩ := h
    intro d hd
    rcases List.mem_cons.mp hd with rfl | hd
    · rcases hc with hc | rfl
      · simp [isIdentChar, Char.isAlphanum, hc]
      · rfl
    · exact hw d hd

theorem ascii_of_le {c d : Char} (h : c.val ≤ d.val) (hd : d.val.toNat ≤ 127) : c.val ≤ 127 := by
  rw [UInt32.le_iff_toNat_le] at h ⊢
  simp only [UInt32.reduceToNat]
  omega

theorem ascii_of_isNumberChar {c : Char} (h : isNumberChar c) : c.val ≤ 127 := by
  simp only [isNumberChar, isMantissaChar, Char.isDigit, Bool.or_eq_true, Bool.and_eq_true,
    decide_eq_true_eq, beq_iff_eq] at h
  rcases h with ((((⟨-, h⟩ | rfl) | rfl) | rfl) | rfl) | rfl
  · exact ascii_of_le h (by decide)
  all_goals decide

theorem ascii_of_isIdentChar {c : Char} (h : isIdentChar c) : c.val ≤ 127 := by
  simp only [isIdentChar, Char.isAlphanum, Char.isAlpha, Char.isUpper, Char.isLower, Char.isDigit,
    Bool.or_eq_true, Bool.and_eq_true, decide_eq_true_eq, beq_iff_eq] at h
  rcases h with ((⟨-, h⟩ | ⟨-, h⟩) | ⟨-, h⟩) | rfl
  exacts [ascii_of_le h (by decide), ascii_of_le h (by decide), ascii_of_le h (by decide),
    by decide]

theorem longest_of_next {P : List Char → Prop} {q : Char → Bool} (hq : ∀ v, P v → ∀ c ∈ v, q c)
    {w rest : List Char} (hw : P w) (hnext : ∀ c ∈ rest.head?, q c = false) :
    Longest P w rest := by
  refine ⟨hw, fun v hv hpre => ?_⟩
  by_contra hlt
  obtain ⟨u, rfl⟩ : w <+: v :=
    List.prefix_of_prefix_length_le (List.prefix_append w rest) hpre (by omega)
  obtain ⟨t, ht⟩ := hpre
  have hu : u ++ t = rest := by simpa [List.append_assoc] using ht
  cases u with
  | nil => simp at hlt
  | cons c u =>
    have hc : q c := hq _ hv c (by simp)
    subst hu
    simp [hc] at hnext

end Elasto.Formula

namespace Elasto.Float64

open Elasto.Formula

theorem toString_int (n : Int) : toString n = (if n < 0 then "-" else "") ++ natText n.natAbs := by
  rw [Int.toString_eq_repr, Int.repr_eq_if]
  by_cases h : n < 0
  · rw [if_neg (by omega), if_pos h, show (-n).toNat = n.natAbs by omega]
    rfl
  · rw [if_pos (by omega), if_neg h, show n.toNat = n.natAbs by omega]
    exact (String.empty_append).symm

theorem numberSpelling_of_mantissa {m x : List Char} (hm : m ≠ []) (hc : ∀ c ∈ m, isMantissaChar c)
    (hx : x = [] ∨ IsExponent x) : NumberSpelling (m ++ x) :=
  ⟨m, x, rfl, hm, hc, hx⟩

theorem isMantissaChar_of_mem_toDigits {c : Char} {n : Nat} (h : c ∈ Nat.toDigits 10 n) :
    isMantissaChar c := by
  simp [isMantissaChar, Nat.isDigit_of_mem_toDigits (by decide) (by decide) h]

theorem natText_spelling (n : Nat) : NumberSpelling (natText n).toList := by
  have h := numberSpelling_of_mantissa (m := Nat.toDigits 10 n) (x := []) Nat.toDigits_ne_nil
    (fun _ => isMantissaChar_of_mem_toDigits) (.inl rfl)
  simpa [natText] using h

theorem positional_chars (d : Decimal) (k : Nat) :
    ∀ c ∈ (d.positional k).toList, isMantissaChar c := by
  have hdig : ∀ c ∈ Nat.toDigits 10 d.digits, isMantissaChar c :=
    fun _ => isMantissaChar_of_mem_toDigits
  have hzero : ∀ n, ∀ c ∈ List.replicate n '0', isMantissaChar c := fun n c hc => by
    rw [List.eq_of_mem_replicate hc]
    rfl
  unfold Decimal.positional
  dsimp only
  have hnil : ∀ c ∈ ([] : List Char), isMantissaChar c := fun _ h => nomatch h
  split_ifs <;> simp only [String.toList_ofList, List.forall_mem_append, List.forall_mem_cons]
  · exact ⟨⟨⟨by decide, by decide, hnil⟩, hzero _⟩, hdig⟩
  · exact ⟨⟨fun c hc => hdig c (List.mem_of_mem_take hc), by decide, hnil⟩,
      fun c hc => hdig c (List.mem_of_mem_drop hc)⟩
  · exact ⟨⟨hdig, hzero _⟩, hnil⟩
  · exact ⟨⟨hdig, hzero _⟩, by decide, hzero _⟩

theorem positional_spelling (d : Decimal) (k : Nat) : NumberSpelling (d.positional k).toList := by
  rw [← List.append_nil (d.positional k).toList]
  refine numberSpelling_of_mantissa ?_ (positional_chars d k) (.inl rfl)
  unfold Decimal.positional
  dsimp only
  split_ifs <;> simp [Nat.toDigits_ne_nil]

theorem isExponent_toString (e : Int) : IsExponent ('e' :: (toString e).toList) := by
  rw [toString_int, String.toList_append]
  refine ⟨.inl rfl, (if e < 0 then "-" else "").toList, (natText e.natAbs).toList, rfl, ?_, ?_, ?_⟩
  · split_ifs <;> simp
  · simp [natText, Nat.toDigits_ne_nil]
  · intro c hc
    exact Nat.isDigit_of_mem_toDigits (b := 10) (by decide) (by decide)
      (by simpa [natText] using hc)

theorem scientific_spelling (d : Decimal) : NumberSpelling d.scientific.toList := by
  have hdig : ∀ c ∈ Nat.toDigits 10 d.digits, isMantissaChar c :=
    fun _ => isMantissaChar_of_mem_toDigits
  unfold Decimal.scientific
  dsimp only
  rw [String.toList_append, String.toList_append, String.toList_ofList,
    show ("e" : String).toList = ['e'] from rfl, List.append_assoc, List.singleton_append]
  refine numberSpelling_of_mantissa ?_ ?_ (.inr (isExponent_toString _))
  · split
    · simp
    · exact Nat.toDigits_ne_nil
  · -- the first digit, a point when more follow, then the other digits
    split
    · rename_i c r _ hs
      simp only [List.forall_mem_cons]
      rw [hs] at hdig
      simp only [List.forall_mem_cons] at hdig
      exact ⟨hdig.1, by decide, hdig.2⟩
    · exact hdig

/-- The text of a finite double in a layout is a number, after a minus sign when negative. -/
theorem write_split (L : Layout) {x : Float} {neg : Bool} {m : Nat} {e : Int}
    (hx : Word.ofFloat x = .finite neg m e) :
    ∃ body, L.write x = (if neg then "-" else "") ++ body ∧ NumberSpelling body.toList := by
  unfold Layout.write
  rw [hx]
  refine ⟨_, rfl, ?_⟩
  split
  · exact positional_spelling _ _
  · exact scientific_spelling _

theorem constant_split {x : Float} {neg : Bool} {m : Nat} {e : Int}
    (hx : Word.ofFloat x = .finite neg m e) :
    ∃ (sgn : Bool) (body : String), constant x = (if sgn then "-" else "") ++ body ∧
      NumberSpelling body.toList := by
  obtain ⟨body, hw, hb⟩ := write_split Layout.general hx
  unfold constant general
  split
  · rename_i n _
    split
    · refine ⟨decide (n < 0), natText n.natAbs, ?_, natText_spelling _⟩
      rw [toString_int]
      by_cases h : n < 0 <;> simp [h]
    · exact ⟨neg, body, hw, hb⟩
  · exact ⟨neg, body, hw, hb⟩

/-- A constant reads back from its text: it is finite, and however its text splits into a
minus sign or none and a number, the number reads as a double that is the constant, negated
after a sign. Every finite double but a negative zero is meant to. -/
def ReadsBack (x : Float) : Prop :=
  (∃ neg m e, Word.ofFloat x = .finite neg m e) ∧
    ∀ (sgn : Bool) (body : String), constant x = (if sgn then "-" else "") ++ body →
      NumberSpelling body.toList → ∃ w, readDecimal? body = some w ∧ (if sgn then -w else w) = x

theorem ReadsBack.split {x : Float} (h : ReadsBack x) :
    ∃ (sgn : Bool) (body : String) (w : Float), constant x = (if sgn then "-" else "") ++ body ∧
      NumberSpelling body.toList ∧ readDecimal? body = some w ∧ (if sgn then -w else w) = x := by
  obtain ⟨⟨neg, m, e, hx⟩, hread⟩ := h
  obtain ⟨sgn, body, htext, hspell⟩ := constant_split hx
  obtain ⟨w, hw, hval⟩ := hread sgn body htext hspell
  exact ⟨sgn, body, w, htext, hspell, hw, hval⟩

end Elasto.Float64
