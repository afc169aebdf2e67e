/-
# Go strings as bytes

A Go `string` is a sequence of bytes, and `strconv.Quote` walks it rune by
rune with `utf8.DecodeRuneInString` (`Utf8.decodeRune`).  A byte that starts
no valid UTF-8 sequence decodes to `RuneError` of width `1` and is written as
`\xNN` (`Strconv.quoteBytes`).  A Lean string is valid Unicode; its bytes in a
Go string are its UTF-8 encoding, `utf8.EncodeRune` of each rune
(`Utf8.encode`).

The decoder reads back every encoded rune (`decodeRune_encodeRune`), so on the
bytes of a Lean string `quoteBytes` is `Strconv.quote` (`quoteBytes_encode`),
and what `Woodpecker.Quote` and `Woodpecker.Envsubst` prove of `quote` holds of
every Go string that is valid UTF-8.  On other bytes YAML does not give the
string back: it reads `\xff` as the rune U+00FF, whose UTF-8 is `C3 BF`, so the
value `FF 0A` comes back as `C3 BF 0A` (`quoteBytes_yaml_not_roundtrip`).
-/

import Woodpecker.Envsubst

namespace Woodpecker

namespace Utf8

/-- `utf8.RuneError`, U+FFFD. -/
def runeError : Char := '\uFFFD'

/-- `first[s0] & 7`, the length of the sequence byte `s0` starts: `1` below
`utf8.RuneSelf`, `0` for a byte that starts none (`xx`: a continuation byte,
`0xC0`, `0xC1`, `0xF5` to `0xFF`). -/
def seqLength (s0 : Nat) : Nat :=
  if s0 < 0x80 then 1 else if s0 < 0xC2 then 0 else if s0 < 0xE0 then 2
  else if s0 < 0xF0 then 3 else if s0 < 0xF5 then 4 else 0

/-- `acceptRanges[first[s0] >> 4]`: the bounds of the byte after `s0`, which
rule out overlong forms, surrogates and runes past `utf8.MaxRune`. -/
def acceptRange (s0 : Nat) : Nat × Nat :=
  if s0 = 0xE0 then (0xA0, 0xBF) else if s0 = 0xED then (0x80, 0x9F)
  else if s0 = 0xF0 then (0x90, 0xBF) else if s0 = 0xF4 then (0x80, 0x8F) else (0x80, 0xBF)

/-- A continuation byte, `locb ≤ b ≤ hicb`. -/
def isCont (b : Nat) : Bool := 0x80 ≤ b && b ≤ 0xBF

/-- `utf8.DecodeRuneInString`: the first rune of `s` and its width,
`(RuneError, 1)` when `s` does not start with a valid sequence.  `s & mask`
and `<<` are `%` and `*`. -/
def decodeRune : List UInt8 → Char × Nat
  | [] => (runeError, 0)
  | s0 :: s =>
    let sz := seqLength s0.toNat
    if sz = 1 then (Char.ofNat s0.toNat, 1)
    else if sz = 0 then (runeError, 1)
    else if s.length + 1 < sz then (runeError, 1)
    else match s with
      | [] => (runeError, 1)
      | s1 :: s =>
        if s1.toNat < (acceptRange s0.toNat).1 ∨ (acceptRange s0.toNat).2 < s1.toNat then
          (runeError, 1)
        else if sz ≤ 2 then (Char.ofNat (s0.toNat % 32 * 64 + s1.toNat % 64), 2)
        else match s with
          | [] => (runeError, 1)
          | s2 :: s =>
            if !isCont s2.toNat then (runeError, 1)
            else if sz ≤ 3 then
              (Char.ofNat (s0.toNat % 16 * 4096 + s1.toNat % 64 * 64 + s2.toNat % 64), 3)
            else match s with
              | [] => (runeError, 1)
              | s3 :: _ =>
                if !isCont s3.toNat then (runeError, 1)
                else (Char.ofNat (s0.toNat % 8 * 262144 + s1.toNat % 64 * 4096 +
                  s2.toNat % 64 * 64 + s3.toNat % 64), 4)

/-- `utf8.EncodeRune` on a rune that is no surrogate and at most
`utf8.MaxRune`, which every `Char` is: `t2 | byte(r>>6)` and
`tx | byte(r)&maskx` are sums, the lead and continuation bits being clear in
the other operand. -/
def encodeRune (r : Char) : List UInt8 :=
  let i := r.toNat
  if i ≤ 0x7F then [UInt8.ofNat i]
  else if i ≤ 0x7FF then [UInt8.ofNat (0xC0 + i / 64), UInt8.ofNat (0x80 + i % 64)]
  else if i ≤ 0xFFFF then
    [UInt8.ofNat (0xE0 + i / 4096), UInt8.ofNat (0x80 + i / 64 % 64), UInt8.ofNat (0x80 + i % 64)]
  else
    [UInt8.ofNat (0xF0 + i / 262144), UInt8.ofNat (0x80 + i / 4096 % 64),
      UInt8.ofNat (0x80 + i / 64 % 64), UInt8.ofNat (0x80 + i % 64)]

/-- The bytes of a Go string holding the runes `s`. -/
def encode (s : List Char) : List UInt8 := s.flatMap encodeRune

theorem encode_cons (c : Char) (s : List Char) : encode (c :: s) = encodeRune c ++ encode s :=
  List.flatMap_cons c s encodeRune

theorem toNat_ofNat_byte {n : Nat} (h : n < 256) : (UInt8.ofNat n).toNat = n :=
  UInt8.toNat_ofNat_of_lt h

theorem ofNat_eq_char (c : Char) {n : Nat} (h : n = c.toNat) : Char.ofNat n = c := by
  rw [h, Char.ofNat_toNat]

theorem isCont_add {n : Nat} (h : n < 64) : isCont (0x80 + n) = true := by
  simp only [isCont, Bool.and_eq_true, decide_eq_true_eq]; omega

/-! ### The decoder, one sequence length at a time -/

theorem decodeRune_ascii {s0 : UInt8} (s : List UInt8) (h : s0.toNat < 0x80) :
    decodeRune (s0 :: s) = (Char.ofNat s0.toNat, 1) := by
  simp [decodeRune, seqLength, h]

/-- The lead bytes of two-, three- and four-byte sequences. -/
theorem seqLength_lead : (∀ a < 32, 2 ≤ a → seqLength (0xC0 + a) = 2) ∧
    (∀ a < 16, seqLength (0xE0 + a) = 3) ∧ (∀ a < 5, seqLength (0xF0 + a) = 4) := by
  decide

/-- The bounds `acceptRanges` sets on the byte after each lead byte. -/
theorem acceptRange_lead : (∀ a < 32, acceptRange (0xC0 + a) = (0x80, 0xBF)) ∧
    (∀ a < 16, acceptRange (0xE0 + a) =
      (if a = 0 then 0xA0 else 0x80, if a = 13 then 0x9F else 0xBF)) ∧
    (∀ a < 5, acceptRange (0xF0 + a) =
      (if a = 0 then 0x90 else 0x80, if a = 4 then 0x8F else 0xBF)) := by
  decide

/-- A two-byte sequence `110aaaaa 10bbbbbb`. -/
theorem decodeRune_two {a b : Nat} (s : List UInt8) (ha : 2 ≤ a ∧ a < 32) (hb : b < 64) :
    decodeRune (UInt8.ofNat (0xC0 + a) :: UInt8.ofNat (0x80 + b) :: s) =
      (Char.ofNat (a * 64 + b), 2) := by
  simp only [decodeRune, toNat_ofNat_byte (by omega : 0xC0 + a < 256),
    toNat_ofNat_byte (by omega : 0x80 + b < 256), seqLength_lead.1 a ha.2 ha.1,
    acceptRange_lead.1 a ha.2, List.length_cons]
  rw [if_neg (by decide), if_neg (by decide), if_neg (by omega), if_neg (by omega), if_pos le_rfl,
    show (0xC0 + a) % 32 * 64 + (0x80 + b) % 64 = a * 64 + b by omega]

/-- A three-byte sequence `1110aaaa 10bbbbbb 10dddddd`, neither overlong nor a
surrogate. -/
theorem decodeRune_three {a b d : Nat} (s : List UInt8) (ha : a < 16) (hb : b < 64) (hd : d < 64)
    (h₀ : a = 0 → 32 ≤ b) (h₁₃ : a = 13 → b < 32) :
    decodeRune (UInt8.ofNat (0xE0 + a) :: UInt8.ofNat (0x80 + b) :: UInt8.ofNat (0x80 + d) :: s) =
      (Char.ofNat (a * 4096 + b * 64 + d), 3) := by
  simp only [decodeRune, toNat_ofNat_byte (by omega : 0xE0 + a < 256),
    toNat_ofNat_byte (by omega : 0x80 + b < 256), toNat_ofNat_byte (by omega : 0x80 + d < 256),
    seqLength_lead.2.1 a ha, acceptRange_lead.2.1 a ha, isCont_add hd, List.length_cons]
  rw [if_neg (by decide), if_neg (by decide), if_neg (by omega), if_neg (by split_ifs <;> omega),
    if_neg (by decide), if_neg (by decide), if_pos le_rfl,
    show (0xE0 + a) % 16 * 4096 + (0x80 + b) % 64 * 64 + (0x80 + d) % 64 = a * 4096 + b * 64 + d by
      omega]

/-- A four-byte sequence `11110aaa 10bbbbbb 10dddddd 10eeeeee`, neither
overlong nor past `utf8.MaxRune`. -/
theorem decodeRune_four {a b d e : Nat} (s : List UInt8) (ha : a < 5) (hb : b < 64) (hd : d < 64)
    (he : e < 64) (h₀ : a = 0 → 16 ≤ b) (h₄ : a = 4 → b < 16) :
    decodeRune (UInt8.ofNat (0xF0 + a) :: UInt8.ofNat (0x80 + b) :: UInt8.ofNat (0x80 + d) ::
        UInt8.ofNat (0x80 + e) :: s) =
      (Char.ofNat (a * 262144 + b * 4096 + d * 64 + e), 4) := by
  simp only [decodeRune, toNat_ofNat_byte (by omega : 0xF0 + a < 256),
    toNat_ofNat_byte (by omega : 0x80 + b < 256), toNat_ofNat_byte (by omega : 0x80 + d < 256),
    toNat_ofNat_byte (by omega : 0x80 + e < 256), seqLength_lead.2.2 a ha,
    acceptRange_lead.2.2 a ha, isCont_add hd, isCont_add he, List.length_cons]
  rw [if_neg (by decide), if_neg (by decide), if_neg (by omega), if_neg (by split_ifs <;> omega),
    if_neg (by decide), if_neg (by decide), if_neg (by decide), if_neg (by decide),
    show (0xF0 + a) % 8 * 262144 + (0x80 + b) % 64 * 4096 + (0x80 + d) % 64 * 64 + (0x80 + e) % 64 =
      a * 262144 + b * 4096 + d * 64 + e by omega]

/-- **The decoder reads back every encoded rune**, whatever follows it: the
lead byte gives the length, the second byte lies in its accepted range since a
`Char` is no surrogate and at most `0x10FFFF`, and the payload bits add up to
the rune. -/
theorem decodeRune_encodeRune (c : Char) (rest : List UInt8) :
    decodeRune (encodeRune c ++ rest) = (c, (encodeRune c).length) := by
  have hv : c.toNat < 0xD800 ∨ 0xDFFF < c.toNat ∧ c.toNat < 0x110000 := c.valid
  have h64 : ∀ n, n % 64 < 64 := fun n => Nat.mod_lt n (by norm_num)
  simp only [encodeRune]
  split_ifs with h₁ h₂ h₃ <;> simp only [List.cons_append, List.nil_append, List.length_cons]
  · rw [decodeRune_ascii _ (by rw [toNat_ofNat_byte (by omega : c.toNat < 256)]; omega),
      toNat_ofNat_byte (by omega : c.toNat < 256), Char.ofNat_toNat]
    rfl
  · rw [decodeRune_two rest (by omega) (h64 _)]
    exact Prod.ext (ofNat_eq_char c (by omega)) rfl
  · rw [decodeRune_three rest (by omega) (h64 _) (h64 _) (by omega) (by omega)]
    exact Prod.ext (ofNat_eq_char c (by omega)) rfl
  · rw [decodeRune_four rest (by omega) (h64 _) (h64 _) (h64 _) (by omega) (by omega)]
    exact Prod.ext (ofNat_eq_char c (by omega)) rfl

example : decodeRune [0xE2, 0x82, 0xAC, 0x41] = ('€', 3) := by decide

end Utf8

namespace Strconv

open Utf8

/-- The loop of `appendQuotedWith` over the bytes of a Go string,
`s = s[width:]`: a byte below `utf8.RuneSelf` is a rune of width `1`, any
other starts `utf8.DecodeRuneInString`; a `RuneError` of width `1` is a byte
that starts no valid sequence and is written `\xNN`, every other rune goes to
`appendEscapedRune`. -/
def quoteLoop (P : PrintTable) : List UInt8 → List Char
  | [] => []
  | b :: s =>
    let dec := if b.toNat < 0x80 then (Char.ofNat b.toNat, 1) else decodeRune (b :: s)
    (if dec.2 = 1 ∧ dec.1 = runeError then '\\' :: 'x' :: hexDigits 2 b.toNat
      else appendEscapedRune P dec.1) ++ quoteLoop P (s.drop (dec.2 - 1))
termination_by s => s.length
decreasing_by simp only [List.length_drop, List.length_cons]; omega

/-- `strconv.Quote` on the bytes of a Go string. -/
def quoteBytes (P : PrintTable) (s : List UInt8) : String :=
  ⟨'"' :: quoteLoop P s ++ ['"']⟩

/-- The loop's own test for a byte below `utf8.RuneSelf` is the decoder's. -/
theorem firstRune_eq (b : UInt8) (s : List UInt8) :
    (if b.toNat < 0x80 then (Char.ofNat b.toNat, 1) else decodeRune (b :: s)) =
      decodeRune (b :: s) := by
  split_ifs with h
  · rw [decodeRune_ascii s h]
  · rfl

theorem quoteLoop_cons {P : PrintTable} {b : UInt8} {s : List UInt8} {r : Char} {w : Nat}
    (h : decodeRune (b :: s) = (r, w)) :
    quoteLoop P (b :: s) =
      (if w = 1 ∧ r = runeError then '\\' :: 'x' :: hexDigits 2 b.toNat
        else appendEscapedRune P r) ++ quoteLoop P (s.drop (w - 1)) := by
  rw [quoteLoop, firstRune_eq, h]

theorem two_le_length_encodeRune_runeError : 2 ≤ (encodeRune runeError).length := by decide

/-- **On valid UTF-8, Go's quoting is the quoting of the runes.** -/
theorem quoteLoop_encode (P : PrintTable) (l : List Char) :
    quoteLoop P (encode l) = l.flatMap (appendEscapedRune P) := by
  induction l with
  | nil => simp [encode, quoteLoop]
  | cons c l ih =>
    obtain ⟨b, bs, hc⟩ : ∃ b bs, encodeRune c = b :: bs := by
      simp only [encodeRune]; split_ifs <;> exact ⟨_, _, rfl⟩
    have hd := decodeRune_encodeRune c (encode l)
    rw [hc, List.cons_append] at hd
    have hw : ¬ ((b :: bs).length = 1 ∧ c = runeError) := by
      rintro ⟨h₁, rfl⟩
      have := two_le_length_encodeRune_runeError
      rw [hc] at this
      omega
    rw [encode_cons, hc, List.cons_append, quoteLoop_cons hd, if_neg hw, List.length_cons,
      Nat.add_sub_cancel, List.drop_left, ih, List.flatMap_cons]

/-- **`strconv.Quote` on the bytes of a Lean string is `Strconv.quote`.** -/
theorem quoteBytes_encode (P : PrintTable) (s : String) :
    quoteBytes P (encode s.data) = quote P s := by
  rw [quoteBytes, quoteLoop_encode, quote]

end Strconv

/-- A newline is never printable: `appendEscapedRune` writes it `\n`. -/
theorem appendEscapedRune_newline (P : PrintTable) : Strconv.appendEscapedRune P '\n' = ['\\', 'n'] := by
  have hp : P.isPrint '\n' = false := by
    cases h : P.isPrint '\n'
    · rfl
    · exact absurd (P.printable_yaml _ h).2 (by decide)
  rw [Strconv.appendEscapedRune, if_neg (by decide), if_neg (by simp [hp])]

/-- Whatever the printable table, Go quotes the bytes `FF 0A` as `"\xff\n"`:
`FF` starts no UTF-8 sequence and a newline is never printable. -/
theorem quoteBytes_ff_lf (P : PrintTable) : Strconv.quoteBytes P [0xFF, 0x0A] = "\"\\xff\\n\"" := by
  rw [Strconv.quoteBytes,
    Strconv.quoteLoop_cons (by decide : Utf8.decodeRune [0xFF, 0x0A] = (Utf8.runeError, 1)),
    if_pos ⟨rfl, rfl⟩, Nat.sub_self, List.drop_zero,
    Strconv.quoteLoop_cons (by decide : Utf8.decodeRune [0x0A] = ('\n', 1)), if_neg (by decide),
    appendEscapedRune_newline, List.drop_nil, Strconv.quoteLoop]
  decide

/-- **Go's quoting of invalid UTF-8 does not survive YAML.**  The value
`FF 0A` is quoted as `"\xff\n"`, which YAML decodes to U+00FF and a newline,
the bytes `C3 BF 0A`. -/
theorem quoteBytes_yaml_not_roundtrip :
    ¬ ∀ (P : PrintTable) (v : List UInt8), (0x0A : UInt8) ∈ v →
      (yamlDoubleQuoted (Strconv.quoteBytes P v)).map (fun s => Utf8.encode s.data) = some v := by
  intro h
  have := h asciiPrintTable [0xFF, 0x0A] (by decide)
  rw [quoteBytes_ff_lf] at this
  revert this
  decide

end Woodpecker
