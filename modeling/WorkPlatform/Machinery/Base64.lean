import Mathlib.Data.List.Basic
import Mathlib.Data.Nat.Notation

/-!
# Machinery/Base64 — bytes as text

    abcdefgh ijklmnop qrstuvwx  ──▸  abcdef ghijkl mnopqr stuvwx      three bytes, four symbols
    abcdefgh ijklmnop           ──▸  abcdef ghijkl mnop00 =
    abcdefgh                    ──▸  abcdef gh0000 =      =

What is encoded is decoded to what it was (`decode_encode`), and the text is of the 64 symbols and
the padding alone (`mem_encode`).  A text of another making is decoded too: up to its padding, `-`
and `_` read as `+` and `/`, and what is no symbol passed over.
-/

namespace Machinery.Base64

/-! ## Symbols -/

def alphabet : List Char :=
  "ABCDEFGHIJKLMNOPQRSTUVWXYZabcdefghijklmnopqrstuvwxyz0123456789+/".toList

def symbol (n : ℕ) : Char := alphabet.getD n 'A'

/-- The value of a symbol, in the spelling for URLs too; the padding has none. -/
def value (c : Char) : Option ℕ :=
  if c = '-' then some 62 else if c = '_' then some 63 else alphabet.idxOf? c

theorem symbol_mem (n : ℕ) : symbol n ∈ alphabet := by
  have hA : 'A' ∈ alphabet := by decide
  rw [symbol, List.getD_eq_getElem?_getD]
  cases h : alphabet[n]? with
  | none => exact hA
  | some c => exact List.mem_of_getElem? h

theorem symbol_ne {c : Char} (h : c ∉ alphabet) (n : ℕ) : symbol n ≠ c :=
  fun heq => h (heq ▸ symbol_mem n)

theorem idxOf_symbol : ∀ n < 64, alphabet.idxOf? (symbol n) = some n := by decide

theorem value_symbol {n : ℕ} (h : n < 64) : value (symbol n) = some n := by
  rw [value, if_neg (symbol_ne (by decide) n), if_neg (symbol_ne (by decide) n), idxOf_symbol n h]

/-! ## Texts -/

/-- Base64, with padding. -/
def encode : List UInt8 → List Char
  | [] => []
  | [a] => [symbol (a.toNat / 4), symbol (a.toNat % 4 * 16), '=', '=']
  | [a, b] =>
    [symbol (a.toNat / 4), symbol (a.toNat % 4 * 16 + b.toNat / 16), symbol (b.toNat % 16 * 4), '=']
  | a :: b :: c :: rest =>
    symbol (a.toNat / 4) :: symbol (a.toNat % 4 * 16 + b.toNat / 16) ::
      symbol (b.toNat % 16 * 4 + c.toNat / 64) :: symbol (c.toNat % 64) :: encode rest

/-- The bytes that symbols stand for; bits that are left over are dropped. -/
def bytes : List ℕ → List UInt8
  | w :: x :: y :: z :: rest =>
    .ofNat (w * 4 + x / 16) :: .ofNat (x % 16 * 16 + y / 4) :: .ofNat (y % 4 * 64 + z) :: bytes rest
  | [w, x, y] => [.ofNat (w * 4 + x / 16), .ofNat (x % 16 * 16 + y / 4)]
  | [w, x] => [.ofNat (w * 4 + x / 16)]
  | _ => []

/-- The symbols before the padding; what is no symbol is passed over. -/
def symbols (text : List Char) : List ℕ := (text.takeWhile (· ≠ '=')).filterMap value

def decode (text : List Char) : List UInt8 := bytes (symbols text)

theorem symbols_padding (text : List Char) : symbols ('=' :: text) = [] := rfl

theorem symbols_cons {n : ℕ} (h : n < 64) (text : List Char) :
    symbols (symbol n :: text) = n :: symbols text := by
  have hne : decide (symbol n ≠ '=') = true := decide_eq_true (symbol_ne (by decide) n)
  simp only [symbols, List.takeWhile_cons, hne, if_true, List.filterMap_cons, value_symbol h]

theorem ofNat_eq {n : ℕ} {a : UInt8} (h : n = a.toNat) : UInt8.ofNat n = a := by
  rw [h, UInt8.ofNat_toNat]

/-! The bytes of a group of symbols, whatever the byte before and the byte after are. -/

theorem ofNat_first (a : UInt8) (after : ℕ) (hafter : after < 16) :
    UInt8.ofNat (a.toNat / 4 * 4 + (a.toNat % 4 * 16 + after) / 16) = a := ofNat_eq (by omega)

theorem ofNat_second (b : UInt8) (before after : ℕ) (hafter : after < 4) :
    UInt8.ofNat ((before * 16 + b.toNat / 16) % 16 * 16 + (b.toNat % 16 * 4 + after) / 4) = b := by
  have hb := b.toNat_lt
  exact ofNat_eq (by omega)

theorem ofNat_third (c : UInt8) (before : ℕ) :
    UInt8.ofNat ((before * 4 + c.toNat / 64) % 4 * 64 + c.toNat % 64) = c := by
  have hc := c.toNat_lt
  exact ofNat_eq (by omega)

/-- **What is encoded is decoded.** -/
theorem decode_encode (bs : List UInt8) : decode (encode bs) = bs := by
  induction bs using encode.induct with
  | case1 => rfl
  | case2 a =>
    have ha := a.toNat_lt
    have hfirst := ofNat_first a 0 (by omega)
    rw [Nat.add_zero] at hfirst
    rw [decode, encode, symbols_cons (by omega), symbols_cons (by omega), symbols_padding, bytes,
      hfirst]
  | case3 a b =>
    have ha := a.toNat_lt
    have hb := b.toNat_lt
    have hfirst := ofNat_first a (b.toNat / 16) (by omega)
    have hsecond := ofNat_second b (a.toNat % 4) 0 (by omega)
    rw [Nat.add_zero] at hsecond
    rw [decode, encode, symbols_cons (by omega), symbols_cons (by omega), symbols_cons (by omega),
      symbols_padding, bytes, hfirst, hsecond]
  | case4 a b c rest ih =>
    have ha := a.toNat_lt
    have hb := b.toNat_lt
    have hc := c.toNat_lt
    have hfirst := ofNat_first a (b.toNat / 16) (by omega)
    have hsecond := ofNat_second b (a.toNat % 4) (c.toNat / 64) (by omega)
    have hthird := ofNat_third c (b.toNat % 16)
    rw [decode] at ih
    rw [decode, encode, symbols_cons (by omega), symbols_cons (by omega), symbols_cons (by omega),
      symbols_cons (by omega), bytes, hfirst, hsecond, hthird, ih]

/-- The text is of symbols and padding. -/
theorem mem_encode {bs : List UInt8} {c : Char} (h : c ∈ encode bs) : c ∈ alphabet ∨ c = '=' := by
  induction bs using encode.induct with
  | case1 => cases h
  | case2 a =>
    simp only [encode, List.mem_cons, List.not_mem_nil, or_false] at h
    rcases h with rfl | rfl | rfl | rfl
    · exact Or.inl (symbol_mem _)
    · exact Or.inl (symbol_mem _)
    · exact Or.inr rfl
    · exact Or.inr rfl
  | case3 a b =>
    simp only [encode, List.mem_cons, List.not_mem_nil, or_false] at h
    rcases h with rfl | rfl | rfl | rfl
    · exact Or.inl (symbol_mem _)
    · exact Or.inl (symbol_mem _)
    · exact Or.inl (symbol_mem _)
    · exact Or.inr rfl
  | case4 a b d rest ih =>
    simp only [encode, List.mem_cons] at h
    rcases h with rfl | rfl | rfl | rfl | h
    · exact Or.inl (symbol_mem _)
    · exact Or.inl (symbol_mem _)
    · exact Or.inl (symbol_mem _)
    · exact Or.inl (symbol_mem _)
    · exact ih h

theorem colon_notMem_encode (bs : List UInt8) : ':' ∉ encode bs := by
  intro h
  have hnone : ':' ∉ alphabet := by decide
  exact (mem_encode h).elim hnone (by decide)

end Machinery.Base64
