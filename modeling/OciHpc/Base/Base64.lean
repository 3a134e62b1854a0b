import Mathlib.Data.List.TakeWhile

/-!
# Base64 with the URL-safe alphabet

* `sextets`, `octets` : bytes as groups of six bits, and back;
* `urlsafeB64encode` : `base64.urlsafe_b64encode(_).decode("ascii")`;
* `b64decode` : `base64.b64decode(_.encode("ascii"), altchars=b"-_", validate=True)`, which takes both alphabets;
* `b64decode_urlsafeB64encode`, `length_urlsafeB64encode` : what is encoded is decoded, and how long it is.
-/

namespace OciHpc.Base64

/-! ## Groups of six bits -/

def sextets : List UInt8 → List Nat
  | a :: b :: c :: rest =>
      [a.toNat / 4, a.toNat % 4 * 16 + b.toNat / 16, b.toNat % 16 * 4 + c.toNat / 64, c.toNat % 64] ++ sextets rest
  | [a, b] => [a.toNat / 4, a.toNat % 4 * 16 + b.toNat / 16, b.toNat % 16 * 4]
  | [a] => [a.toNat / 4, a.toNat % 4 * 16]
  | [] => []

def octets : List Nat → List UInt8
  | w :: x :: y :: z :: rest =>
      [UInt8.ofNat (w * 4 + x / 16), UInt8.ofNat (x % 16 * 16 + y / 4), UInt8.ofNat (y % 4 * 64 + z)] ++ octets rest
  | [w, x, y] => [UInt8.ofNat (w * 4 + x / 16), UInt8.ofNat (x % 16 * 16 + y / 4)]
  | [w, x] => [UInt8.ofNat (w * 4 + x / 16)]
  | _ => []

theorem ofNat_eq {n : Nat} {byte : UInt8} (h : n = byte.toNat) : UInt8.ofNat n = byte := by
  rw [h, UInt8.ofNat_toNat]

theorem octets_sextets (bytes : List UInt8) : octets (sextets bytes) = bytes := by
  induction bytes using sextets.induct with
  | case1 a b c rest ih =>
    have ha := a.toNat_lt
    have hb := b.toNat_lt
    have hc := c.toNat_lt
    rw [sextets, List.cons_append, List.cons_append, List.cons_append, List.cons_append, List.nil_append, octets, ih, @ofNat_eq _ a (by omega), @ofNat_eq _ b (by omega),
      @ofNat_eq _ c (by omega)]
    rfl
  | case2 a b =>
    have ha := a.toNat_lt
    have hb := b.toNat_lt
    rw [sextets, octets, @ofNat_eq _ a (by omega), @ofNat_eq _ b (by omega)]
  | case3 a =>
    have ha := a.toNat_lt
    rw [sextets, octets, @ofNat_eq _ a (by omega)]
  | case4 => rfl

theorem sextet_lt (bytes : List UInt8) : ∀ n ∈ sextets bytes, n < 64 := by
  induction bytes using sextets.induct with
  | case1 a b c rest ih =>
    have ha := a.toNat_lt
    have hb := b.toNat_lt
    have hc := c.toNat_lt
    intro n hn
    rw [sextets, List.mem_append] at hn
    obtain hn | hn := hn
    · simp only [List.mem_cons, List.not_mem_nil, or_false] at hn
      omega
    · exact ih n hn
  | case2 a b =>
    have ha := a.toNat_lt
    have hb := b.toNat_lt
    intro n hn
    simp only [sextets, List.mem_cons, List.not_mem_nil, or_false] at hn
    omega
  | case3 a =>
    have ha := a.toNat_lt
    intro n hn
    simp only [sextets, List.mem_cons, List.not_mem_nil, or_false] at hn
    omega
  | case4 => exact fun n hn => absurd hn List.not_mem_nil

theorem length_sextets (bytes : List UInt8) : (sextets bytes).length = (bytes.length * 4 + 2) / 3 := by
  induction bytes using sextets.induct with
  | case1 a b c rest ih =>
    simp only [sextets, List.length_append, List.length_cons, List.length_nil, ih]
    omega
  | case2 | case3 | case4 => simp [sextets]

/-! ## Characters -/

/-- The URL-safe alphabet: `-` and `_` stand for `+` and `/`. -/
def alphabet : List Char := "ABCDEFGHIJKLMNOPQRSTUVWXYZabcdefghijklmnopqrstuvwxyz0123456789-_".toList

def digit (n : Nat) : Char := alphabet.getD n 'A'

/-- `s.translate(bytes.maketrans(altchars, b"+/"))`, and the position of the character in the standard alphabet. -/
def digitValue (c : Char) : Option Nat :=
  if c = '+' then some 62 else if c = '/' then some 63 else alphabet.idxOf? c

theorem digitValue_digit_all : (List.range 64).all (fun n => digitValue (digit n) == some n) = true := by decide +kernel

theorem digitValue_digit {n : Nat} (h : n < 64) : digitValue (digit n) = some n :=
  eq_of_beq (List.all_eq_true.mp digitValue_digit_all n (List.mem_range.mpr h))

def padding (count : Nat) : Nat := (4 - count % 4) % 4

def urlsafeB64encode (bytes : List UInt8) : List Char :=
  (sextets bytes).map digit ++ List.replicate (padding (sextets bytes).length) '='

/-- So many pads complete a text. Versions of Python differ on a pad too many: `surplus` says where it is passed over. -/
def isPadded (surplus : Nat → Nat → Bool) (count pads : Nat) : Bool :=
  count % 4 != 1 && (pads == padding count || (padding count < pads && pads ≤ 2 && surplus count pads))

def b64decode (surplus : Nat → Nat → Bool) (text : List Char) : Option (List UInt8) :=
  let digits := text.takeWhile (· ≠ '=')
  let pads := text.dropWhile (· ≠ '=')
  if pads.all (· = '=') && isPadded surplus digits.length pads.length then (digits.mapM digitValue).map octets else none

theorem digit_ne_pad_all : (List.range 64).all (fun n => decide (digit n ≠ '=')) = true := by decide +kernel

theorem digit_ne_pad {n : Nat} (h : n < 64) : digit n ≠ '=' :=
  of_decide_eq_true (List.all_eq_true.mp digit_ne_pad_all n (List.mem_range.mpr h))

theorem mapM_digitValue {values : List Nat} (h : ∀ n ∈ values, n < 64) : (values.map digit).mapM digitValue = some values := by
  induction values with
  | nil => rfl
  | cons n rest ih =>
    rw [List.map_cons, List.mapM_cons, digitValue_digit (h n List.mem_cons_self),
      ih fun m hm => h m (List.mem_cons_of_mem _ hm)]
    rfl

/-- **What is encoded is decoded**, by every version. -/
theorem b64decode_urlsafeB64encode (surplus : Nat → Nat → Bool) (bytes : List UInt8) :
    b64decode surplus (urlsafeB64encode bytes) = some bytes := by
  have hdigits : ∀ c ∈ (sextets bytes).map digit, decide (c ≠ '=') = true := by
    intro c hc
    obtain ⟨n, hn, rfl⟩ := List.mem_map.mp hc
    exact decide_eq_true (digit_ne_pad (sextet_lt bytes n hn))
  have hpads : (List.replicate (padding (sextets bytes).length) '=').dropWhile (· ≠ '=') =
      List.replicate (padding (sextets bytes).length) '=' := by
    cases padding (sextets bytes).length <;> rfl
  have htake : (List.replicate (padding (sextets bytes).length) '=').takeWhile (· ≠ '=') = [] := by
    cases padding (sextets bytes).length <;> rfl
  have hcount : (sextets bytes).length % 4 ≠ 1 := by
    rw [length_sextets]
    omega
  have hpadded : isPadded surplus (sextets bytes).length (padding (sextets bytes).length) = true := by
    simp [isPadded, hcount]
  rw [b64decode, urlsafeB64encode]
  simp only [List.takeWhile_append_of_pos hdigits, List.dropWhile_append_of_pos hdigits, htake, hpads, List.append_nil,
    List.length_map, List.length_replicate, hpadded, Bool.and_true, mapM_digitValue (sextet_lt bytes), Option.map_some,
    octets_sextets]
  exact if_pos (by simp)

theorem length_urlsafeB64encode (bytes : List UInt8) :
    (urlsafeB64encode bytes).length = 4 * ((bytes.length + 2) / 3) := by
  rw [urlsafeB64encode, List.length_append, List.length_map, List.length_replicate, padding, length_sextets]
  omega

end OciHpc.Base64
