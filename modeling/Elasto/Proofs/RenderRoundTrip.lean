import Mathlib
import Elasto.Proofs.NumberText
import Elasto.Proofs.Grammar
import Elasto.Proofs.Substitution
import Elasto.Tensor.Render

/-! # Reading rendered formulas

The text of a scalar expression reads back as a formula. The renderer brackets an operand
exactly where it binds looser than its position asks, and the grammar takes each phrase at its
level: a sum on the left of `+` and `-`, a product on their right and on the left of `*` and
`/`, and an operand of a sign on the right of these and after a sign. `DerivesAt p ts e` says
that the tokens `ts` derive `e` at level `p` whatever follows them, and `LexesBefore cs ts`
that the characters `cs` lex as `ts` whatever stop follows them; the text of a node is
assembled from the texts of its operands, and so are its tokens and its derivation.

What is read is the expression written, rebuilt bottom-up through the folding builders as the
reader builds it, with its temporaries read as members, provided the text of each constant
reads back.

Main statement: `read_render_eq_rebuild`.
-/

namespace Elasto.Tensor

/-- The leaves a formula reads symbols as: a scalar symbol is the member of its name. -/
def Leaves.asMembers : Leaves Float := ⟨fun s => Scalar.member s.name, .sym, .sym⟩

end Elasto.Tensor

namespace Elasto.Formula

open Elasto.Tensor

section Lexing

/-- A character no number or name goes on into: a blank, a bracket or a comma. -/
def Stops (c : Char) : Prop := c = ' ' ∨ c = '(' ∨ c = ')' ∨ c = ','

theorem Stops.not_isNumberChar {c : Char} (h : Stops c) : isNumberChar c = false := by
  rcases h with rfl | rfl | rfl | rfl <;> rfl

theorem Stops.not_isIdentChar {c : Char} (h : Stops c) : isIdentChar c = false := by
  rcases h with rfl | rfl | rfl | rfl <;> rfl

/-- `cs` lexes as `ts` in front of any text that starts with a stop. -/
def LexesBefore (cs : List Char) (ts : List Token) : Prop :=
  ∀ rest ts', (∀ c ∈ rest.head?, Stops c) → Lexes rest ts' → Lexes (cs ++ rest) (ts ++ ts')

namespace LexesBefore

variable {cs ys : List Char} {ts us : List Token}

theorem nil : LexesBefore [] [] := fun _ _ _ h => h

theorem blank (h : LexesBefore cs ts) : LexesBefore (' ' :: cs) ts :=
  fun rest ts' hs hl => .blank rfl (h rest ts' hs hl)

theorem single {c : Char} {t : Token} (hc : Formula.single c = some t) (h : LexesBefore cs ts) :
    LexesBefore (c :: cs) (t :: ts) :=
  fun rest ts' hs hl => @Lexes.token [c] (cs ++ rest) t (ts ++ ts') (.single hc) (h rest ts' hs hl)

theorem append (hx : LexesBefore cs ts) (hy : LexesBefore ys us)
    (hs : ∀ c ∈ ys.head?, Stops c) : LexesBefore (cs ++ ys) (ts ++ us) := by
  intro rest ts' hrest hl
  have hys := hy rest ts' hrest hl
  have hstop : ∀ c ∈ (ys ++ rest).head?, Stops c := by
    cases ys with
    | nil => simpa using hrest
    | cons y ys => simpa using hs
  simpa [List.append_assoc] using hx _ _ hstop hys

theorem number {w : List Char} {v : Float} (hw : NumberSpelling w)
    (hv : Float64.readDecimal? (String.ofList w) = some v) : LexesBefore w [.number v] := by
  intro rest ts' hs hl
  refine .token (.number ?_ hv) hl
  exact longest_of_next (fun _ => isNumberChar_of_numberSpelling) hw
    fun c hc => (hs c hc).not_isNumberChar

theorem name {w : List Char} (hw : NameSpelling w) : LexesBefore w [.ident (String.ofList w)] := by
  intro rest ts' hs hl
  refine .token (.name ?_) hl
  exact longest_of_next (fun _ => isIdentChar_of_nameSpelling) hw
    fun c hc => (hs c hc).not_isIdentChar

theorem ident {n : String} (hn : NameSpelling n.toList) : LexesBefore n.toList [.ident n] := by
  have h := name hn
  rwa [String.ofList_toList] at h

theorem bracket (h : LexesBefore cs ts) :
    LexesBefore ('(' :: (cs ++ [')'])) (.lparen :: (ts ++ [.rparen])) :=
  .single rfl (h.append (.single rfl .nil) (by simp [Stops]))

end LexesBefore

end Lexing

section Derivations

/-- `ts` derives `e` with `rest` after it, and a sum that goes on after `e` as well. -/
def ExprFrom (ts : List Token) (e : Scalar) (rest : List Token) : Prop :=
  ∀ e' rest', IsExprTail e rest e' rest' → IsExpr ts e' rest'

/-- `ts` derives `e` with `rest` after it, and a product that goes on after `e` as well. -/
def TermFrom (ts : List Token) (e : Scalar) (rest : List Token) : Prop :=
  ∀ e' rest', IsTermTail e rest e' rest' → IsTerm ts e' rest'

theorem exprFrom_of_termFrom {ts rest : List Token} {e : Scalar} (h : TermFrom ts e rest) :
    ExprFrom ts e rest :=
  fun _ _ ht => .mk (h e rest .stop) ht

theorem termFrom_of_isUnary {ts rest : List Token} {e : Scalar} (h : IsUnary ts e rest) :
    TermFrom ts e rest :=
  fun _ _ ht => .mk h ht

/-- The tokens `ts` derive `e` at binding level `p` in front of any tokens: as a sum at the
additive level, a product at the multiplicative one, and an operand of a sign above. -/
def DerivesAt (p : Nat) (ts : List Token) (e : Scalar) : Prop :=
  if p ≤ Prec.additive then ∀ rest, ExprFrom (ts ++ rest) e rest
  else if p = Prec.multiplicative then ∀ rest, TermFrom (ts ++ rest) e rest
  else ∀ rest, IsUnary (ts ++ rest) e rest

namespace DerivesAt

variable {p q : Nat} {ts ta tb : List Token} {e a b : Scalar}

theorem of_isUnary (h : ∀ rest, IsUnary (ts ++ rest) e rest) (p : Nat) : DerivesAt p ts e := by
  unfold DerivesAt
  split_ifs
  · exact fun rest => exprFrom_of_termFrom (termFrom_of_isUnary (h rest))
  · exact fun rest => termFrom_of_isUnary (h rest)
  · exact h

theorem isUnary (h : DerivesAt p ts e) (hp : Prec.unary ≤ p) :
    ∀ rest, IsUnary (ts ++ rest) e rest := by
  unfold DerivesAt at h
  rw [if_neg (by simp only [Prec.additive, Prec.unary] at hp ⊢; omega),
    if_neg (by simp only [Prec.multiplicative, Prec.unary] at hp ⊢; omega)] at h
  exact h

theorem termFrom (h : DerivesAt p ts e) (hp : Prec.multiplicative ≤ p) :
    ∀ rest, TermFrom (ts ++ rest) e rest := by
  unfold DerivesAt at h
  rw [if_neg (by simp only [Prec.additive, Prec.multiplicative] at hp ⊢; omega)] at h
  split_ifs at h
  · exact h
  · exact fun rest => termFrom_of_isUnary (h rest)

theorem exprFrom (h : DerivesAt p ts e) : ∀ rest, ExprFrom (ts ++ rest) e rest := by
  unfold DerivesAt at h
  split_ifs at h
  · exact h
  · exact fun rest => exprFrom_of_termFrom (h rest)
  · exact fun rest => exprFrom_of_termFrom (termFrom_of_isUnary (h rest))

theorem isExpr (h : DerivesAt p ts e) (rest : List Token) : IsExpr (ts ++ rest) e rest :=
  h.exprFrom rest e rest .stop

theorem mono (h : DerivesAt p ts e) (hq : q ≤ p) : DerivesAt q ts e := by
  unfold DerivesAt
  split_ifs with h₁ h₂
  · exact h.exprFrom
  · exact h.termFrom (by simp only [Prec.multiplicative] at h₂ ⊢; omega)
  · exact h.isUnary (by simp only [Prec.additive, Prec.multiplicative, Prec.unary] at h₁ h₂ ⊢; omega)

theorem sum {t : Token} {mk : Scalar → Scalar → Scalar}
    (htail : ∀ {lhs ts rhs r e rest}, IsTerm ts rhs r → IsExprTail (mk lhs rhs) r e rest →
      IsExprTail lhs (t :: ts) e rest)
    (ha : DerivesAt Prec.additive ta a) (hb : DerivesAt Prec.multiplicative tb b) :
    DerivesAt Prec.additive (ta ++ t :: tb) (mk a b) := by
  unfold DerivesAt
  rw [if_pos le_rfl]
  intro rest e' rest' ht
  rw [List.append_assoc, List.cons_append]
  exact ha.exprFrom _ e' rest' (htail (hb.termFrom le_rfl rest b rest .stop) ht)

theorem product {t : Token} {mk : Scalar → Scalar → Scalar}
    (htail : ∀ {lhs ts rhs r e rest}, IsUnary ts rhs r → IsTermTail (mk lhs rhs) r e rest →
      IsTermTail lhs (t :: ts) e rest)
    (ha : DerivesAt Prec.multiplicative ta a) (hb : DerivesAt Prec.unary tb b) :
    DerivesAt Prec.multiplicative (ta ++ t :: tb) (mk a b) := by
  unfold DerivesAt
  rw [if_neg (by decide), if_pos rfl]
  intro rest e' rest' ht
  rw [List.append_assoc, List.cons_append]
  exact ha.termFrom le_rfl _ e' rest' (htail (hb.isUnary le_rfl rest) ht)

theorem neg (ha : DerivesAt Prec.atom ta a) : DerivesAt Prec.unary (.minus :: ta) (Scalar.mkNeg a) :=
  of_isUnary (fun rest => .neg (ha.isUnary (by decide) rest)) _

theorem primary (h : ∀ rest, IsPrimary (ts ++ rest) e rest) (p : Nat) : DerivesAt p ts e :=
  of_isUnary (fun rest => .power (.base (h rest))) p

theorem paren (h : DerivesAt p ts e) (q : Nat) :
    DerivesAt q (.lparen :: (ts ++ [.rparen])) e :=
  primary (fun rest => .paren (by simpa using h.isExpr (.rparen :: rest))) q

end DerivesAt

end Derivations

section Reading

/-- The text `t` lexes, in front of a stop, as tokens that derive `e` at level `p`. -/
def Reads (t : String) (p : Nat) (e : Scalar) : Prop :=
  ∃ ts, LexesBefore (bytesAsChars t) ts ∧ DerivesAt p ts e

theorem bytesAsChars_name {n : String} (hn : NameSpelling n.toList) : bytesAsChars n = n.toList :=
  bytesAsChars_of_ascii fun _ hc => ascii_of_isIdentChar (isIdentChar_of_nameSpelling hn _ hc)

namespace Reads

variable {x y : String} {p q : Nat} {a b e : Scalar}

/-- An operand is bracketed where it binds looser than its position asks. -/
theorem operand (h : Reads x p e) (m : Nat) : Reads (Tensor.operand x p m) m e := by
  obtain ⟨ts, hl, hd⟩ := h
  unfold Tensor.operand
  split_ifs with hlt
  · refine ⟨.lparen :: (ts ++ [.rparen]), ?_, hd.paren m⟩
    rw [bytesAsChars_append, bytesAsChars_append, bytesAsChars_of_ascii (s := "(") (by simp),
      bytesAsChars_of_ascii (s := ")") (by simp)]
    simp only [List.append_assoc]
    exact hl.bracket
  · exact ⟨ts, hl, hd.mono (by omega)⟩

theorem spaced {op : String} {c : Char} {t : Token} (hop : bytesAsChars op = [' ', c, ' '])
    (hc : Formula.single c = some t) {ta tb : List Token} (ha : LexesBefore (bytesAsChars x) ta)
    (hb : LexesBefore (bytesAsChars y) tb) :
    LexesBefore (bytesAsChars (x ++ op ++ y)) (ta ++ t :: tb) := by
  rw [bytesAsChars_append, bytesAsChars_append, hop, List.append_assoc]
  exact ha.append (.blank (.single hc (.blank hb))) (by simp [Stops])

theorem sum {op : String} {c : Char} {t : Token} {mk : Scalar → Scalar → Scalar}
    (hop : bytesAsChars op = [' ', c, ' ']) (hc : Formula.single c = some t)
    (htail : ∀ {lhs ts rhs r e rest}, IsTerm ts rhs r → IsExprTail (mk lhs rhs) r e rest →
      IsExprTail lhs (t :: ts) e rest)
    (ha : Reads x p a) (hb : Reads y q b) :
    Reads (infixText x p op y q Prec.additive) Prec.additive (mk a b) := by
  obtain ⟨ta, hla, hda⟩ := ha.operand Prec.additive
  obtain ⟨tb, hlb, hdb⟩ := hb.operand (Prec.additive + 1)
  exact ⟨ta ++ t :: tb, spaced hop hc hla hlb, DerivesAt.sum htail hda hdb⟩

theorem product {op : String} {c : Char} {t : Token} {mk : Scalar → Scalar → Scalar}
    (hop : bytesAsChars op = [' ', c, ' ']) (hc : Formula.single c = some t)
    (htail : ∀ {lhs ts rhs r e rest}, IsUnary ts rhs r → IsTermTail (mk lhs rhs) r e rest →
      IsTermTail lhs (t :: ts) e rest)
    (ha : Reads x p a) (hb : Reads y q b) :
    Reads (infixText x p op y q Prec.multiplicative) Prec.multiplicative (mk a b) := by
  obtain ⟨ta, hla, hda⟩ := ha.operand Prec.multiplicative
  obtain ⟨tb, hlb, hdb⟩ := hb.operand (Prec.multiplicative + 1)
  exact ⟨ta ++ t :: tb, spaced hop hc hla hlb, DerivesAt.product htail hda hdb⟩

theorem neg (ha : Reads x p a) :
    Reads ("-" ++ Tensor.operand x p Prec.atom) Prec.unary (Scalar.mkNeg a) := by
  obtain ⟨ta, hla, hda⟩ := ha.operand Prec.atom
  refine ⟨.minus :: ta, ?_, DerivesAt.neg hda⟩
  rw [bytesAsChars_append, bytesAsChars_of_ascii (s := "-") (by simp)]
  exact .single rfl hla

theorem call₁ {n : String} (hn : NameSpelling n.toList) (happ : Applies n [a] e)
    (ha : Reads x p a) (q : Nat) : Reads (n ++ "(" ++ x ++ ")") q e := by
  obtain ⟨ta, hla, hda⟩ := ha
  refine ⟨.ident n :: .lparen :: (ta ++ [.rparen]), ?_, ?_⟩
  · rw [bytesAsChars_append, bytesAsChars_append, bytesAsChars_append, bytesAsChars_name hn,
      bytesAsChars_of_ascii (s := "(") (by simp), bytesAsChars_of_ascii (s := ")") (by simp)]
    simp only [List.append_assoc]
    exact (LexesBefore.ident hn).append hla.bracket (by simp [Stops])
  · refine DerivesAt.primary (fun rest => ?_) q
    simp only [List.cons_append, List.append_assoc]
    exact .call (hda.isExpr (.rparen :: rest)) .close happ

theorem call₂ {n : String} (hn : NameSpelling n.toList) (happ : Applies n [a, b] e)
    (ha : Reads x p a) (hb : Reads y q b) (r : Nat) :
    Reads (n ++ "(" ++ x ++ ", " ++ y ++ ")") r e := by
  obtain ⟨ta, hla, hda⟩ := ha
  obtain ⟨tb, hlb, hdb⟩ := hb
  refine ⟨.ident n :: .lparen :: (ta ++ .comma :: (tb ++ [.rparen])), ?_, ?_⟩
  · rw [bytesAsChars_append, bytesAsChars_append, bytesAsChars_append, bytesAsChars_append,
      bytesAsChars_append, bytesAsChars_name hn, bytesAsChars_of_ascii (s := "(") (by simp),
      bytesAsChars_of_ascii (s := ", ") (by simp), bytesAsChars_of_ascii (s := ")") (by simp)]
    simp only [List.append_assoc]
    refine (LexesBefore.ident hn).append (.single rfl (hla.append (.single rfl (.blank
      (hlb.append (.single rfl .nil) (by simp [Stops])))) (by simp [Stops]))) (by simp [Stops])
  · refine DerivesAt.primary (fun rest => ?_) r
    simp only [List.cons_append, List.append_assoc]
    exact .call (hda.isExpr _) (.next (hdb.isExpr (.rparen :: rest)) .close) happ

theorem const {v : Float} (hv : Float64.ReadsBack v) :
    Reads (Float64.constant v) p (Scalar.const v) := by
  obtain ⟨sgn, body, w, htext, hspell, hread, hval⟩ := hv.split
  have hascii : bytesAsChars body = body.toList := bytesAsChars_of_ascii
    fun _ hc => ascii_of_isNumberChar (isNumberChar_of_numberSpelling hspell _ hc)
  have hnum : LexesBefore (bytesAsChars body) [.number w] := by
    rw [hascii]
    exact .number hspell (by rw [String.ofList_toList]; exact hread)
  rw [htext]
  cases sgn with
  | false =>
    obtain rfl : w = v := hval
    exact ⟨[.number w], by simpa using hnum, DerivesAt.primary (fun _ => .number) p⟩
  | true =>
    have hneg : Scalar.mkNeg (.const w) = .const v := by
      rw [Scalar.mkNeg]
      exact congrArg Scalar.const hval
    refine ⟨[.minus, .number w], ?_, DerivesAt.of_isUnary (fun _ => hneg ▸ .neg (.power (.base .number))) p⟩
    rw [if_pos rfl, bytesAsChars_append, bytesAsChars_of_ascii (s := "-") (by simp)]
    exact .single rfl hnum

theorem temp {n : String} (hn : NameSpelling n.toList) : Reads n p (Scalar.member n) := by
  refine ⟨[.ident n], ?_, DerivesAt.primary (fun _ => .name) p⟩
  rw [bytesAsChars_name hn]
  exact .ident hn

end Reads

end Reading

/-- The scalar expressions whose text a formula reads: constants whose text reads back,
temporaries named by identifiers, and signs, the four operations, powers and calls over them. -/
inductive Printable : Scalar → Prop
  | const {v : Float} : Float64.ReadsBack v → Printable (.const v)
  | temp {n : String} : NameSpelling n.toList → Printable (.sym ⟨n, .temporary⟩)
  | neg {a : Scalar} : Printable a → Printable (.neg a)
  | add {a b : Scalar} : Printable a → Printable b → Printable (.add a b)
  | sub {a b : Scalar} : Printable a → Printable b → Printable (.sub a b)
  | mul {a b : Scalar} : Printable a → Printable b → Printable (.mul a b)
  | div {a b : Scalar} : Printable a → Printable b → Printable (.div a b)
  | pow {a b : Scalar} : Printable a → Printable b → Printable (.pow a b)
  | call {f : Fn} {a : Scalar} : Printable a → Printable (.call f a)

theorem bytesAsChars_spaced {op : String} {c : Char} (h : op.toList = [' ', c, ' '])
    (hc : c.val ≤ 127) : bytesAsChars op = [' ', c, ' '] := by
  rw [bytesAsChars_of_ascii (by rw [h]; simp [hc]), h]

/-- The text of a printable expression lexes, in front of a stop, as tokens that derive the
expression rebuilt with its symbols as members, at the level its top node binds. -/
theorem Printable.reads {e : Scalar} (h : Printable e) :
    Reads e.render e.prec (e.rebuild .asMembers) := by
  induction h with
  | const hv => exact Reads.const hv
  | temp hn => exact Reads.temp hn
  | neg _ ih => exact Reads.neg ih
  | add _ _ iha ihb =>
    exact Reads.sum (bytesAsChars_spaced (c := '+') (by simp) (by decide)) rfl .add iha ihb
  | sub _ _ iha ihb =>
    exact Reads.sum (bytesAsChars_spaced (c := '-') (by simp) (by decide)) rfl .sub iha ihb
  | mul _ _ iha ihb =>
    exact Reads.product (bytesAsChars_spaced (c := '*') (by simp) (by decide)) rfl .mul iha ihb
  | div _ _ iha ihb =>
    exact Reads.product (bytesAsChars_spaced (c := '/') (by simp) (by decide)) rfl .div iha ihb
  | pow _ _ iha ihb =>
    have h := Reads.call₂ (n := "pow") (by simp [NameSpelling, isIdentChar]) (.pow _ _) iha ihb
      Prec.atom
    rw [show ("pow" : String) ++ "(" = "pow(" by simp] at h
    exact h
  | call _ ih =>
    rename_i f a _
    cases f with
    | exp => exact Reads.call₁ (n := "exp") (by simp [NameSpelling, isIdentChar]) (.exp _) ih _
    | log => exact Reads.call₁ (n := "log") (by simp [NameSpelling, isIdentChar]) (.log _) ih _
    | sqrt => exact Reads.call₁ (n := "sqrt") (by simp [NameSpelling, isIdentChar]) (.sqrt _) ih _

/-- The text of a printable scalar expression reads back as the expression rebuilt through the
folding builders, its symbols read as members: the brackets the text holds are those its
precedences and associativity need. -/
theorem read_render_eq_rebuild {e : Scalar} (h : Printable e) : read e.render = .ok (e.rebuild .asMembers) := by
  obtain ⟨ts, hl, hd⟩ := h.reads
  have hlex : Lexes (bytesAsChars e.render) ts := by simpa using hl [] [] (by simp) .nil
  exact ((read_eq_ok_iff_lexes_isExpr e.render).1 _).mpr ⟨ts, hlex, by simpa using hd.isExpr []⟩

/-- `-(x - y) / pow(x, sqrt(y * x))` over temporaries reads back, with members for its
symbols. -/
theorem quotient_of_temporaries_reads_back :
    let x : Scalar := .sym ⟨"x", .temporary⟩
    let y : Scalar := .sym ⟨"y", .temporary⟩
    let e := Scalar.div (.neg (.sub x y)) (.pow x (.call .sqrt (.mul y x)))
    e.render = "-(x - y) / pow(x, sqrt(y * x))" ∧ Printable e ∧
      read e.render = .ok (e.rebuild .asMembers) := by
  intro x y e
  have hx : Printable x := .temp (by simp [NameSpelling])
  have hy : Printable y := .temp (by simp [NameSpelling])
  have he : Printable e := .div (.neg (.sub hx hy)) (.pow hx (.call (.mul hy hx)))
  exact ⟨by decide, he, read_render_eq_rebuild he⟩

end Elasto.Formula
