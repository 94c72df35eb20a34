import Mathlib
import Elasto.Formula.Token
import Elasto.Proofs.Except

/-! # The lexical rules of formulas

The rules the tokenizer follows, stated on their own: blanks are skipped, the characters
`+ - * / ^ ( ) ,` are tokens of their own, a number is the longest run of digits and points
with an optional exponent, read as a double, and a name is the longest run of letters,
digits and underscores that starts with a letter or an underscore.

Main statements: `scan_sound` and `scan_complete`, scanning succeeds exactly on the
characters that lex by the rules, with their tokens; `scan_error` and `scan_offsets`, every
failure and every token is at an offset inside the input. -/

namespace Elasto.Formula

open Elasto.Tensor

section Rules

/-- Characters of the run that starts a number. -/
def isMantissaChar (c : Char) : Bool := c.isDigit || c == '.'

/-- An exponent: `e` or `E`, an optional sign, then at least one digit. -/
def IsExponent : List Char → Prop
  | e :: r => (e = 'e' ∨ e = 'E') ∧ ∃ sign digits, r = sign ++ digits ∧
      (sign = [] ∨ sign = ['+'] ∨ sign = ['-']) ∧ digits ≠ [] ∧ ∀ d ∈ digits, d.isDigit
  | [] => False

/-- A number: a run of digits and points, then an optional exponent. -/
def NumberSpelling (w : List Char) : Prop :=
  ∃ m x, w = m ++ x ∧ m ≠ [] ∧ (∀ c ∈ m, isMantissaChar c) ∧ (x = [] ∨ IsExponent x)

/-- A name: a letter or an underscore, then letters, digits and underscores. -/
def NameSpelling : List Char → Prop
  | c :: w => (c.isAlpha ∨ c = '_') ∧ ∀ x ∈ w, isIdentChar x
  | [] => False

/-- `w` is the longest prefix of `w ++ rest` spelled by `P`. -/
def Longest (P : List Char → Prop) (w rest : List Char) : Prop :=
  P w ∧ ∀ v, P v → v <+: w ++ rest → v.length ≤ w.length

/-- The first token of `w ++ rest` is written `w` and is `t`. -/
inductive Spells : List Char → List Char → Token → Prop
  | single {c rest t} (h : single c = some t) : Spells [c] rest t
  | number {w rest v} (h : Longest NumberSpelling w rest)
      (hv : Float64.readDecimal? (String.ofList w) = some v) : Spells w rest (.number v)
  | name {w rest} (h : Longest NameSpelling w rest) : Spells w rest (.ident (String.ofList w))

/-- The tokens of a list of characters, blanks skipped. -/
inductive Lexes : List Char → List Token → Prop
  | nil : Lexes [] []
  | blank {c cs ts} (h : isBlank c) (tail : Lexes cs ts) : Lexes (c :: cs) ts
  | token {w rest t ts} (h : Spells w rest t) (tail : Lexes rest ts) : Lexes (w ++ rest) (t :: ts)

end Rules

section Longest

variable {P : List Char → Prop}

theorem Longest.eq_of_append_eq {w r w' r' : List Char} (h : Longest P w r)
    (h' : Longest P w' r') (he : w ++ r = w' ++ r') : w = w' := by
  have hw : w' <+: w ++ r := he ▸ List.prefix_append w' r'
  have hw' : w <+: w' ++ r' := he ▸ List.prefix_append w r
  have hle := h.2 w' h'.1 hw
  have hge := h'.2 w h.1 hw'
  exact ((List.prefix_of_prefix_length_le (List.prefix_append w r) hw hge.ge).eq_of_length
    (by omega))

end Longest

section TakeWhile

variable {α : Type} {p : α → Bool}

theorem prefix_takeWhile {v l : List α} (hv : v <+: l) (hp : ∀ x ∈ v, p x) :
    v <+: l.takeWhile p := by
  induction v generalizing l with
  | nil => exact List.nil_prefix
  | cons a v ih =>
    obtain ⟨l', rfl⟩ : ∃ l', l = a :: l' := by
      obtain ⟨t, rfl⟩ := hv
      exact ⟨v ++ t, rfl⟩
    rw [List.takeWhile_cons_of_pos (hp a (List.mem_cons_self ..))]
    exact List.cons_prefix_cons.mpr ⟨rfl, ih ((List.cons_prefix_cons.mp hv).2)
      fun x hx => hp x (List.mem_cons_of_mem _ hx)⟩

theorem drop_length_takeWhile (l : List α) : l.drop (l.takeWhile p).length = l.dropWhile p := by
  induction l with
  | nil => rfl
  | cons a l ih =>
    rw [List.takeWhile_cons, List.dropWhile_cons]
    split
    · simp [ih]
    · simp

theorem take_length_takeWhile (l : List α) : l.take (l.takeWhile p).length = l.takeWhile p := by
  induction l with
  | nil => rfl
  | cons a l ih =>
    rw [List.takeWhile_cons]
    split
    · simp [ih]
    · simp

end TakeWhile

section Numbers

/-- Length of the sign at the front of an exponent's digits. -/
def signLength : List Char → Nat
  | s :: _ => if s == '+' || s == '-' then 1 else 0
  | [] => 0

/-- Length of the exponent at the front of `t`, zero when there is none. -/
def exponentSpan : List Char → Nat
  | e :: r =>
    if e == 'e' || e == 'E' then
      let digits := ((r.drop (signLength r)).takeWhile Char.isDigit).length
      if 0 < digits then 1 + signLength r + digits else 0
    else 0
  | [] => 0

theorem numberSpan_eq (cs : List Char) :
    numberSpan cs = (cs.takeWhile isMantissaChar).length +
      exponentSpan (cs.dropWhile isMantissaChar) := by
  unfold numberSpan
  dsimp only
  rw [show (fun c : Char => c.isDigit || c == '.') = isMantissaChar from rfl,
    drop_length_takeWhile]
  rcases cs.dropWhile isMantissaChar with _ | ⟨e, r⟩
  · rfl
  · rcases r with _ | ⟨s, r⟩
    · simp [exponentSpan, signLength]
    · by_cases hs : (s == '+' || s == '-') = true <;>
        simp only [exponentSpan, signLength, hs, if_true, Bool.false_eq_true, if_false,
          List.drop_zero, List.drop_succ_cons] <;>
        split_ifs <;> simp <;> omega

theorem signLength_append {sign digits u : List Char}
    (hsign : sign = [] ∨ sign = ['+'] ∨ sign = ['-']) (hne : digits ≠ [])
    (hdig : ∀ d ∈ digits, d.isDigit) : signLength (sign ++ digits ++ u) = sign.length := by
  rcases hsign with rfl | rfl | rfl
  · obtain ⟨d, ds, rfl⟩ := List.exists_cons_of_ne_nil hne
    have hd : d.isDigit = true := hdig d (List.mem_cons_self ..)
    have h : (d == '+' || d == '-') = false := by
      revert hd
      simp only [Char.isDigit, Bool.or_eq_false_iff, beq_eq_false_iff_ne]
      intro hd
      constructor <;> (rintro rfl; simp at hd)
    simp [signLength, h]
  all_goals simp [signLength]

theorem le_exponentSpan {x t : List Char} (hx : IsExponent x) (ht : x <+: t) :
    x.length ≤ exponentSpan t := by
  obtain ⟨u, rfl⟩ := ht
  match x, hx with
  | e :: _, ⟨he, sign, digits, rfl, hsign, hne, hdig⟩ =>
    have hs := signLength_append (u := u) hsign hne hdig
    have he' : (e == 'e' || e == 'E') = true := by rcases he with rfl | rfl <;> rfl
    have hdrop : (sign ++ digits ++ u).drop sign.length = digits ++ u := by simp
    have hlen : digits.length ≤ ((digits ++ u).takeWhile Char.isDigit).length := by
      rw [List.takeWhile_append_of_pos hdig, List.length_append]
      omega
    have hpos : 0 < digits.length := List.length_pos_of_ne_nil hne
    simp only [List.cons_append, exponentSpan, he', if_true, List.append_assoc] at hs hdrop ⊢
    rw [hs, hdrop, if_pos (by omega)]
    simp only [List.length_cons, List.length_append]
    omega

theorem exponentSpan_spelled (t : List Char) :
    exponentSpan t = 0 ∨ IsExponent (t.take (exponentSpan t)) := by
  rcases t with _ | ⟨e, r⟩
  · exact .inl rfl
  · simp only [exponentSpan]
    split_ifs with he hd
    · refine .inr ?_
      rw [show 1 + signLength r + ((r.drop (signLength r)).takeWhile Char.isDigit).length =
          (signLength r + ((r.drop (signLength r)).takeWhile Char.isDigit).length) + 1 by omega,
        List.take_succ_cons, List.take_add, take_length_takeWhile]
      refine ⟨by simpa using he, _, _, rfl, ?_, List.ne_nil_of_length_pos hd,
        fun d hd => List.mem_takeWhile_imp hd⟩
      rcases r with _ | ⟨s, r⟩
      · exact .inl rfl
      · by_cases hs : (s == '+' || s == '-') = true
        · simp only [signLength, hs, if_true, List.take_succ_cons, List.take_zero]
          simp only [Bool.or_eq_true, beq_iff_eq] at hs
          rcases hs with rfl | rfl <;> simp
        · simp [signLength, hs]
    · exact .inl rfl
    · exact .inl rfl

/-- The number at the front of a list that starts with a digit or a point is the longest
prefix spelled as a number, and `numberSpan` measures it. -/
theorem numberSpan_longest {c : Char} (rest : List Char) (hc : isMantissaChar c) :
    Longest NumberSpelling ((c :: rest).take (numberSpan (c :: rest)))
      ((c :: rest).drop (numberSpan (c :: rest))) := by
  set cs := c :: rest
  set m := cs.takeWhile isMantissaChar
  set t := cs.dropWhile isMantissaChar
  have hcs : cs = m ++ t := List.takeWhile_append_dropWhile.symm
  have hm : m ≠ [] := by simp [m, cs, hc]
  have htake : cs.take (numberSpan cs) = m ++ t.take (exponentSpan t) := by
    rw [numberSpan_eq, List.take_add, take_length_takeWhile, drop_length_takeWhile]
  refine ⟨?_, fun v hv hpre => ?_⟩
  · refine ⟨m, t.take (exponentSpan t), htake, hm, fun x hx => List.mem_takeWhile_imp hx, ?_⟩
    rcases exponentSpan_spelled t with h | h
    · exact .inl (by simp [h])
    · exact .inr h
  · rw [List.take_append_drop] at hpre
    obtain ⟨m', x', rfl, -, hm', hx'⟩ := hv
    have hmm : m' <+: m := prefix_takeWhile ((List.prefix_append m' x').trans hpre) hm'
    rw [htake, List.length_append]
    rcases hx' with rfl | hx'
    · simpa using le_trans hmm.length_le (Nat.le_add_right _ _)
    -- an exponent starts with `e`, which ends the run: the run of `v` is all of `m`
    obtain ⟨k, hk⟩ := hmm
    rcases k with _ | ⟨a, k⟩
    · simp only [List.append_nil] at hk
      subst hk
      obtain ⟨u, hu⟩ := hpre
      have hxt : x' <+: t := ⟨u, by rw [hcs, List.append_assoc] at hu; simpa using hu⟩
      have hle := le_exponentSpan hx' hxt
      have hlt := hxt.length_le
      simp only [List.length_append, List.length_take]
      omega
    · exfalso
      have ha : isMantissaChar a := List.mem_takeWhile_imp (hk ▸ List.mem_append_right _
        (List.mem_cons_self ..))
      obtain ⟨u, hu⟩ := hpre
      rw [hcs, ← hk, List.append_assoc, List.append_assoc] at hu
      match x', hx' with
      | e :: _, ⟨he, _⟩ =>
        obtain ⟨rfl, -⟩ : e = a ∧ _ := by simpa using hu
        rcases he with rfl | rfl <;> exact absurd ha (by decide)

end Numbers

section Names

theorem name_longest {c : Char} (rest : List Char) (hc : c.isAlpha ∨ c = '_') :
    Longest NameSpelling (c :: rest.takeWhile isIdentChar) (rest.dropWhile isIdentChar) := by
  refine ⟨⟨hc, fun x hx => List.mem_takeWhile_imp hx⟩, fun v hv hpre => ?_⟩
  rw [List.cons_append, List.takeWhile_append_dropWhile] at hpre
  match v, hv with
  | _ :: w, ⟨_, hw⟩ =>
    simpa using (prefix_takeWhile (List.cons_prefix_cons.mp hpre).2 hw).length_le

end Names

section Classes

/-! The classes of characters the tokenizer tells apart do not overlap. -/

theorem isBlank_eq_true {c : Char} :
    isBlank c = true ↔ c = ' ' ∨ c = '\t' ∨ c = '\n' ∨ c = '\x0c' ∨ c = '\r' := by
  simp [isBlank, or_assoc]

theorem eq_of_single_eq_some {c : Char} {t : Token} (h : single c = some t) :
    c = '+' ∨ c = '-' ∨ c = '*' ∨ c = '/' ∨ c = '^' ∨ c = '(' ∨ c = ')' ∨ c = ',' := by
  unfold single at h
  split at h <;> simp_all

theorem isBlank_of_single_eq_some {c : Char} {t : Token} (h : single c = some t) :
    isBlank c = false := by
  rcases eq_of_single_eq_some h with rfl | rfl | rfl | rfl | rfl | rfl | rfl | rfl <;> rfl

theorem isBlank_of_isMantissaChar {c : Char} (h : isMantissaChar c) : isBlank c = false := by
  rw [← Bool.not_eq_true, isBlank_eq_true]
  rintro (rfl | rfl | rfl | rfl | rfl) <;> exact absurd h (by decide)

theorem single_of_isMantissaChar {c : Char} (h : isMantissaChar c) : single c = none := by
  rw [Option.eq_none_iff_forall_ne_some]
  intro t ht
  rcases eq_of_single_eq_some ht with rfl | rfl | rfl | rfl | rfl | rfl | rfl | rfl <;>
    exact absurd h (by decide)

theorem isBlank_of_nameStart {c : Char} (h : c.isAlpha ∨ c = '_') : isBlank c = false := by
  rw [← Bool.not_eq_true, isBlank_eq_true]
  rintro (rfl | rfl | rfl | rfl | rfl) <;> revert h <;> decide

theorem single_of_nameStart {c : Char} (h : c.isAlpha ∨ c = '_') : single c = none := by
  rw [Option.eq_none_iff_forall_ne_some]
  intro t ht
  rcases eq_of_single_eq_some ht with rfl | rfl | rfl | rfl | rfl | rfl | rfl | rfl <;>
    revert h <;> decide

theorem not_isMantissaChar_of_nameStart {c : Char} (h : c.isAlpha ∨ c = '_') :
    isMantissaChar c = false := by
  rcases h with h | rfl
  · simp only [Char.isAlpha, Char.isUpper, Char.isLower, Bool.or_eq_true, Bool.and_eq_true,
      decide_eq_true_eq, UInt32.le_iff_toNat_le] at h
    simp only [isMantissaChar, Bool.or_eq_false_iff, beq_eq_false_iff_ne, Char.isDigit,
      Bool.and_eq_false_iff, decide_eq_false_iff_not, UInt32.le_iff_toNat_le, not_le]
    -- letters lie in 65..90 and 97..122, digits in 48..57
    have h0 : ('0' : Char).val.toNat = 48 := rfl
    have h9 : ('9' : Char).val.toNat = 57 := rfl
    have hA : ('A' : Char).val.toNat = 65 := rfl
    have hZ : ('Z' : Char).val.toNat = 90 := rfl
    have ha : ('a' : Char).val.toNat = 97 := rfl
    have hz : ('z' : Char).val.toNat = 122 := rfl
    refine ⟨by omega, ?_⟩
    rintro rfl
    simp at h
  · rfl

end Classes

section Spans

theorem signLength_le_length (r : List Char) : signLength r ≤ r.length := by
  rcases r with _ | ⟨s, r⟩
  · exact Nat.le_refl 0
  · simp only [signLength, List.length_cons]
    split <;> omega

theorem exponentSpan_le_length (t : List Char) : exponentSpan t ≤ t.length := by
  rcases t with _ | ⟨e, r⟩
  · exact Nat.le_refl 0
  · have hs := signLength_le_length r
    have hd : ((r.drop (signLength r)).takeWhile Char.isDigit).length ≤ r.length - signLength r :=
      List.length_drop .. ▸ (List.takeWhile_prefix _).length_le
    simp only [exponentSpan, List.length_cons]
    split_ifs <;> omega

theorem numberSpan_le_length (cs : List Char) : numberSpan cs ≤ cs.length := by
  have hsplit := congrArg List.length
    (List.takeWhile_append_dropWhile (p := isMantissaChar) (l := cs))
  have he := exponentSpan_le_length (cs.dropWhile isMantissaChar)
  rw [List.length_append] at hsplit
  rw [numberSpan_eq]
  omega

theorem one_le_numberSpan {c : Char} (rest : List Char) (hc : isMantissaChar c) :
    1 ≤ numberSpan (c :: rest) := by
  rw [numberSpan_eq, List.takeWhile_cons_of_pos hc, List.length_cons]
  omega

end Spans

section Lexeme

variable {c : Char} {rest : List Char} {pos : Nat}

theorem Spells.exists_cons {w rest : List Char} {t : Token} (h : Spells w rest t) :
    ∃ c w', w = c :: w' := by
  cases h with
  | single => exact ⟨_, _, rfl⟩
  | number h =>
    obtain ⟨m, x, rfl, hm, -⟩ := h.1
    obtain ⟨c, m', rfl⟩ := List.exists_cons_of_ne_nil hm
    exact ⟨c, m' ++ x, rfl⟩
  | @name w _ h =>
    cases w with
    | nil => exact h.1.elim
    | cons c w' => exact ⟨c, w', rfl⟩

theorem lexOne_of_isBlank (h : isBlank c) :
    lexOne c rest pos = .ok (none, ⟨1, Nat.one_pos⟩) := by
  simp [lexOne, h]

/-- What one step of the tokenizer can do: skip a blank, or read the token spelled by the
characters it takes; it never takes more characters than there are. -/
theorem lexOne_eq_ok {t : Option Token} {n : Nat} {hn : 0 < n}
    (h : lexOne c rest pos = .ok (t, ⟨n, hn⟩)) :
    n ≤ rest.length + 1 ∧ ((isBlank c ∧ t = none ∧ n = 1) ∨
      ∃ tok, t = some tok ∧ Spells ((c :: rest).take n) ((c :: rest).drop n) tok) := by
  unfold lexOne at h
  split at h
  · next hb =>
    simp only [Except.ok.injEq, Prod.mk.injEq, Subtype.mk.injEq] at h
    obtain ⟨rfl, rfl⟩ := h
    exact ⟨by omega, .inl ⟨hb, rfl, rfl⟩⟩
  split at h
  · next tok hs =>
    simp only [Except.ok.injEq, Prod.mk.injEq, Subtype.mk.injEq] at h
    obtain ⟨rfl, rfl⟩ := h
    exact ⟨by omega, .inr ⟨tok, rfl, .single hs⟩⟩
  split at h
  · next hc =>
    have hc : isMantissaChar c := hc
    have hmax : max 1 (numberSpan (c :: rest)) = numberSpan (c :: rest) :=
      max_eq_right (one_le_numberSpan rest hc)
    dsimp only at h
    split at h
    · next v hv =>
      simp only [Except.ok.injEq, Prod.mk.injEq, Subtype.mk.injEq] at h
      obtain ⟨rfl, rfl⟩ := h
      rw [hmax] at hv ⊢
      have hle := numberSpan_le_length (c :: rest)
      exact ⟨by simpa using hle, .inr ⟨_, rfl, .number (numberSpan_longest rest hc) hv⟩⟩
    · cases h
  split at h
  · next hc =>
    simp only [Except.ok.injEq, Prod.mk.injEq, Subtype.mk.injEq] at h
    obtain ⟨rfl, rfl⟩ := h
    have htake : (c :: rest).take (1 + (rest.takeWhile isIdentChar).length) =
        c :: rest.takeWhile isIdentChar := by
      rw [Nat.add_comm, List.take_succ_cons, take_length_takeWhile]
    have hdrop : (c :: rest).drop (1 + (rest.takeWhile isIdentChar).length) =
        rest.dropWhile isIdentChar := by
      rw [Nat.add_comm, List.drop_succ_cons, drop_length_takeWhile]
    have hle : (rest.takeWhile isIdentChar).length ≤ rest.length :=
      (List.takeWhile_prefix _).length_le
    refine ⟨by omega, .inr ⟨_, rfl, ?_⟩⟩
    rw [htake, hdrop]
    exact .name (name_longest rest (by simpa using hc))
  · cases h

theorem lexOne_eq_error {err : ExprError} (h : lexOne c rest pos = .error err) :
    ∃ m, err = .parse pos m := by
  unfold lexOne at h
  split at h
  · cases h
  split at h
  · cases h
  split at h
  · dsimp only at h
    split at h
    · cases h
    · exact ⟨_, (Except.error.inj h).symm⟩
  split at h
  · cases h
  · exact ⟨_, (Except.error.inj h).symm⟩

theorem lexOne_of_spells {w : List Char} {t : Token} (h : Spells (c :: w) rest t) (pos : Nat) :
    lexOne c (w ++ rest) pos = .ok (some t, ⟨w.length + 1, Nat.succ_pos _⟩) := by
  cases h with
  | single hs => simp [lexOne, isBlank_of_single_eq_some hs, hs]
  | number hl hv =>
    have hc : isMantissaChar c := by
      obtain ⟨m, x, hmx, hm, hmc, -⟩ := hl.1
      obtain ⟨a, m', rfl⟩ := List.exists_cons_of_ne_nil hm
      obtain ⟨rfl, -⟩ : c = a ∧ _ := by simpa using hmx
      exact hmc c List.mem_cons_self
    have hw : (c :: (w ++ rest)).take (numberSpan (c :: (w ++ rest))) = c :: w :=
      Longest.eq_of_append_eq (numberSpan_longest (w ++ rest) hc) hl (by simp)
    have hn : numberSpan (c :: (w ++ rest)) = w.length + 1 := by
      have hlen := congrArg List.length hw
      have hle := numberSpan_le_length (c :: (w ++ rest))
      simp only [List.length_take, List.length_cons, List.length_append] at hlen hle
      omega
    have hc' : (c.isDigit || c == '.') = true := hc
    have hmax : max 1 (w.length + 1) = w.length + 1 := by omega
    have htake : (c :: (w ++ rest)).take (w.length + 1) = c :: w := by simp
    simp only [lexOne, isBlank_of_isMantissaChar hc, single_of_isMantissaChar hc, hc',
      Bool.false_eq_true, if_false, if_true, hn, hmax, htake, hv]
  | name hl =>
    have hc : c.isAlpha ∨ c = '_' := hl.1.1
    have hw : c :: (w ++ rest).takeWhile isIdentChar = c :: w :=
      Longest.eq_of_append_eq (name_longest (w ++ rest) hc) hl
        (by rw [List.cons_append, List.takeWhile_append_dropWhile, List.cons_append])
    have hw' : (w ++ rest).takeWhile isIdentChar = w := (List.cons.inj hw).2
    have hc' : (c.isAlpha || c == '_') = true := by simpa using hc
    have hm : (c.isDigit || c == '.') = false := not_isMantissaChar_of_nameStart hc
    simp only [lexOne, isBlank_of_nameStart hc, single_of_nameStart hc, hm, hc',
      Bool.false_eq_true, if_false, if_true, hw', Nat.add_comm 1 w.length]
    simp

end Lexeme

section Scan

variable {c : Char} {rest : List Char} {pos : Nat}

@[simp] theorem scan_nil (pos : Nat) : scan [] pos = .ok [] := by
  rw [scan.eq_def]

theorem scan_cons_of_some {t : Token} {n : Nat} {hn : 0 < n}
    (h : lexOne c rest pos = .ok (some t, ⟨n, hn⟩)) :
    scan (c :: rest) pos = (⟨pos, t⟩ :: ·) <$> scan ((c :: rest).drop n) (pos + n) := by
  rw [scan.eq_def]
  simp only [h]

theorem scan_cons_of_none {n : Nat} {hn : 0 < n}
    (h : lexOne c rest pos = .ok (none, ⟨n, hn⟩)) :
    scan (c :: rest) pos = scan ((c :: rest).drop n) (pos + n) := by
  rw [scan.eq_def]
  simp only [h]

/-- Scanning succeeds only on characters that lex by the rules, with their tokens. -/
theorem scan_sound {cs : List Char} {ls : List Lexeme} (h : scan cs pos = .ok ls) :
    Lexes cs (ls.map Lexeme.token) := by
  induction cs, pos using scan.induct generalizing ls with
  | case1 pos =>
    cases (scan_nil pos).symm.trans h
    exact .nil
  | case2 pos c rest e he => rw [scan.eq_def] at h; simp [he] at h
  | case3 pos c rest n hn t ht ih =>
    obtain ⟨ls', hls', rfl⟩ := except_map_eq_ok.mp ((scan_cons_of_some ht).symm.trans h)
    obtain ⟨-, ⟨-, hnone, -⟩ | ⟨tok, htok, hsp⟩⟩ := lexOne_eq_ok ht
    · cases hnone
    · cases htok
      rw [← List.take_append_drop n (c :: rest)]
      exact .token hsp (ih hls')
  | case4 pos c rest n hn ht ih =>
    rw [scan_cons_of_none ht] at h
    obtain ⟨-, ⟨hb, -, rfl⟩ | ⟨tok, htok, -⟩⟩ := lexOne_eq_ok ht
    · exact .blank hb (ih h)
    · cases htok

/-- Scanning succeeds on every list of characters that lexes by the rules. -/
theorem scan_complete {cs : List Char} {ts : List Token} (h : Lexes cs ts) (pos : Nat) :
    ∃ ls, scan cs pos = .ok ls ∧ ls.map Lexeme.token = ts := by
  induction h generalizing pos with
  | nil => exact ⟨[], scan_nil pos, rfl⟩
  | blank hb _ ih =>
    obtain ⟨ls, hls, rfl⟩ := ih (pos + 1)
    exact ⟨ls, by rw [scan_cons_of_none (lexOne_of_isBlank hb)]; exact hls, rfl⟩
  | @token w rest t _ hs _ ih =>
    obtain ⟨c, w, rfl⟩ := hs.exists_cons
    obtain ⟨ls, hls, rfl⟩ := ih (pos + (w.length + 1))
    refine ⟨⟨pos, t⟩ :: ls, ?_, rfl⟩
    rw [List.cons_append, scan_cons_of_some (lexOne_of_spells hs pos)]
    simp [hls]

theorem scan_eq_ok_iff {cs : List Char} {ts : List Token} :
    (∃ ls, scan cs pos = .ok ls ∧ ls.map Lexeme.token = ts) ↔ Lexes cs ts :=
  ⟨fun ⟨_, h, hts⟩ => hts ▸ scan_sound h, fun h => scan_complete h pos⟩

theorem scan_offsets {cs : List Char} {ls : List Lexeme} (h : scan cs pos = .ok ls) :
    ∀ l ∈ ls, pos ≤ l.offset ∧ l.offset < pos + cs.length := by
  induction cs, pos using scan.induct generalizing ls with
  | case1 pos =>
    cases (scan_nil pos).symm.trans h
    simp
  | case2 pos c rest e he => rw [scan.eq_def] at h; simp [he] at h
  | case3 pos c rest n hn t ht ih =>
    obtain ⟨ls', hls', rfl⟩ := except_map_eq_ok.mp ((scan_cons_of_some ht).symm.trans h)
    have hle := (lexOne_eq_ok ht).1
    rintro l (_ | ⟨_, hl⟩)
    · simp
    · have := ih hls' l hl
      simp only [List.length_drop, List.length_cons] at this ⊢
      omega
  | case4 pos c rest n hn ht ih =>
    rw [scan_cons_of_none ht] at h
    have hle := (lexOne_eq_ok ht).1
    intro l hl
    have := ih h l hl
    simp only [List.length_drop, List.length_cons] at this ⊢
    omega

theorem scan_error {cs : List Char} {err : ExprError} (h : scan cs pos = .error err) :
    ∃ p m, err = .parse p m ∧ pos ≤ p ∧ p < pos + cs.length := by
  induction cs, pos using scan.induct with
  | case1 pos => simp at h
  | case2 pos c rest e he =>
    rw [scan.eq_def] at h
    simp only [he, Except.error.injEq] at h
    obtain ⟨m, rfl⟩ := lexOne_eq_error he
    exact ⟨pos, m, h.symm, le_refl _, by simp⟩
  | case3 pos c rest n hn t ht ih =>
    rw [scan_cons_of_some ht, except_map_eq_error] at h
    obtain ⟨p, m, rfl, hp⟩ := ih h
    have hle := (lexOne_eq_ok ht).1
    simp only [List.length_drop, List.length_cons] at hp ⊢
    exact ⟨p, m, rfl, by omega⟩
  | case4 pos c rest n hn ht ih =>
    rw [scan_cons_of_none ht] at h
    obtain ⟨p, m, rfl, hp⟩ := ih h
    have hle := (lexOne_eq_ok ht).1
    simp only [List.length_drop, List.length_cons] at hp ⊢
    exact ⟨p, m, rfl, by omega⟩

theorem length_bytesAsChars (s : String) : (bytesAsChars s).length = s.utf8ByteSize := by
  have loop : ∀ (b : ByteArray) i r,
      (ByteArray.toList.loop b i r).length = r.length + (b.size - i) := by
    intro b i r
    fun_induction ByteArray.toList.loop b i r with
    | case1 i r h ih => rw [ih, List.length_cons]; omega
    | case2 i r h => rw [List.length_reverse]; omega
  simp [bytesAsChars, ByteArray.toList, loop]

end Scan

end Elasto.Formula
