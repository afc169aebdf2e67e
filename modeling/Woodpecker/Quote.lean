/-
# Go's `%q` against YAML's double-quoted scalars

`envsubst_` replaces a value that contains a newline by `fmt.Sprintf("%q", env)`,
which is `strconv.Quote`: a `"`, every rune escaped by `appendEscapedRune`,
a `"`.  The substituted text is then read by the YAML parser, where a
double-quoted scalar is decoded by YAML's escape rules (`yamlDoubleQuoted`).

Which runes Go leaves unescaped is the table behind `strconv.IsPrint`; it is a
`PrintTable` here, whose one field of contract is what Go's documentation
promises of it: a printable rune is a letter, mark, number, punctuation,
symbol or the ASCII space, so it is printable for YAML and no line break.
`Strconv.quote` walks the runes of a Lean string, which is valid Unicode; Go's
`appendQuotedWith` walks bytes, and on the UTF-8 bytes of a Lean string the two
agree (`Woodpecker.Utf8`, `quoteBytes_encode`), its `\xNN` branch for a byte
that starts no valid sequence being the only one `quote` leaves out.

`yamlDoubleQuoted_quote`: YAML decodes Go's quoting of every string back to
the string; `quote_no_break`: the quoted form is one line.
-/

import Mathlib.Data.List.Basic
import Mathlib.Tactic.Ring

namespace Woodpecker

/-- YAML's line breaks: LF, CR, NEL, LS and PS. -/
def isYamlBreak (c : Char) : Bool :=
  c = '\n' || c = '\r' || c = '\x85' || c = '\u2028' || c = '\u2029'

/-- YAML's `c-printable` characters. -/
def isYamlPrintable (c : Char) : Bool :=
  c = '\t' || c = '\n' || c = '\r' || (0x20 ≤ c.toNat && c.toNat ≤ 0x7e) || c.toNat = 0x85 ||
    (0xa0 ≤ c.toNat && c.toNat ≤ 0xd7ff) || (0xe000 ≤ c.toNat && c.toNat ≤ 0xfffd) ||
    0x10000 ≤ c.toNat

/-- The `unicode.IsPrint` table `strconv` consults: printable runes are letters,
marks, numbers, punctuation, symbols and the ASCII space, none of them a
control, a separator, a surrogate or a non-character. -/
structure PrintTable where
  isPrint : Char → Bool
  printable_yaml : ∀ c, isPrint c = true → isYamlPrintable c = true ∧ isYamlBreak c = false

/-- `lowerhex[d]`. -/
def hexDigit (d : Nat) : Char := if d < 10 then Char.ofNat (48 + d) else Char.ofNat (87 + d)

/-- The `n` lowest hex digits of `v`, most significant first, as `appendEscapedRune`
writes them (`lowerhex[r>>uint(s)&0xF]` for `s` from `4(n-1)` down to `0`). -/
def hexDigits : Nat → Nat → List Char
  | 0, _ => []
  | n + 1, v => hexDigit (v / 16 ^ n % 16) :: hexDigits n v

namespace Strconv

/-- `appendEscapedRune` with `quote = '"'`, `ASCIIonly = false` and
`graphicOnly = false`. -/
def appendEscapedRune (P : PrintTable) (r : Char) : List Char :=
  if r = '"' ∨ r = '\\' then ['\\', r]
  else if P.isPrint r then [r]
  else match r with
    | '\x07' => ['\\', 'a']
    | '\x08' => ['\\', 'b']
    | '\x0c' => ['\\', 'f']
    | '\n' => ['\\', 'n']
    | '\r' => ['\\', 'r']
    | '\t' => ['\\', 't']
    | '\x0b' => ['\\', 'v']
    | _ =>
      if r.toNat < 0x20 ∨ r.toNat = 0x7f then '\\' :: 'x' :: hexDigits 2 (r.toNat % 256)
      else if r.toNat < 0x10000 then '\\' :: 'u' :: hexDigits 4 r.toNat
      else '\\' :: 'U' :: hexDigits 8 r.toNat

/-- `strconv.Quote`, which is `fmt.Sprintf("%q", s)` for a string `s`. -/
def quote (P : PrintTable) (s : String) : String :=
  ⟨'"' :: s.data.flatMap (appendEscapedRune P) ++ ['"']⟩

end Strconv

/-- The character of a one-letter YAML escape `\e`. -/
def yamlEscape : Char → Option Char
  | '0' => some '\x00'
  | 'a' => some '\x07'
  | 'b' => some '\x08'
  | 't' => some '\t'
  | '\t' => some '\t'
  | 'n' => some '\n'
  | 'v' => some '\x0b'
  | 'f' => some '\x0c'
  | 'r' => some '\r'
  | 'e' => some '\x1b'
  | ' ' => some ' '
  | '"' => some '"'
  | '/' => some '/'
  | '\\' => some '\\'
  | 'N' => some '\x85'
  | '_' => some '\xa0'
  | 'L' => some '\u2028'
  | 'P' => some '\u2029'
  | _ => none

/-- The value of a hex digit, either case. -/
def hexDigitVal (c : Char) : Option Nat :=
  if '0' ≤ c ∧ c ≤ '9' then some (c.toNat - 48)
  else if 'a' ≤ c ∧ c ≤ 'f' then some (c.toNat - 87)
  else if 'A' ≤ c ∧ c ≤ 'F' then some (c.toNat - 55)
  else none

/-- The value of a run of hex digits, read after `acc`. -/
def hexValue (acc : Nat) : List Char → Option Nat
  | [] => some acc
  | c :: cs => (hexDigitVal c).bind fun d => hexValue (acc * 16 + d) cs

/-- The character of a code point YAML accepts: no surrogate, at most `0x10FFFF`. -/
def codePoint (v : Nat) : Option Char := if v.isValidChar then some (Char.ofNat v) else none

/-- The character a `\x`, `\u` or `\U` escape stands for. -/
def hexEscape (digits : List Char) : Option Char := (hexValue 0 digits).bind codePoint

/-- The rest of a one-line double-quoted scalar after its opening `"`: escapes
decoded, printable characters kept, and nothing after the closing `"`. -/
def yamlDoubleQuotedBody : List Char → Option (List Char)
  | [] => none
  | ['"'] => some []
  | '"' :: _ :: _ => none
  | '\\' :: 'x' :: a :: b :: rest =>
    (hexEscape [a, b]).bind fun c => (yamlDoubleQuotedBody rest).map (c :: ·)
  | '\\' :: 'u' :: a :: b :: c :: d :: rest =>
    (hexEscape [a, b, c, d]).bind fun c => (yamlDoubleQuotedBody rest).map (c :: ·)
  | '\\' :: 'U' :: a₁ :: a₂ :: a₃ :: a₄ :: a₅ :: a₆ :: a₇ :: a₈ :: rest =>
    (hexEscape [a₁, a₂, a₃, a₄, a₅, a₆, a₇, a₈]).bind fun c =>
      (yamlDoubleQuotedBody rest).map (c :: ·)
  | '\\' :: e :: rest => (yamlEscape e).bind fun c => (yamlDoubleQuotedBody rest).map (c :: ·)
  | c :: rest =>
    if c ≠ '\\' ∧ isYamlPrintable c ∧ !isYamlBreak c then
      (yamlDoubleQuotedBody rest).map (c :: ·)
    else none

/-- A one-line YAML double-quoted scalar, decoded; `none` if it is not one. -/
def yamlDoubleQuoted (s : String) : Option String :=
  match s.data with
  | '"' :: body => (yamlDoubleQuotedBody body).map String.mk
  | _ => none

example : yamlDoubleQuoted "\"a\\tb\\u00e9\"" = some "a\tbé" := by decide

/-! ### Reading back what Go wrote -/

theorem hexDigitVal_hexDigit : ∀ d, d < 16 → hexDigitVal (hexDigit d) = some d := by decide

theorem hexValue_hexDigits (n v acc : Nat) :
    hexValue acc (hexDigits n v) = some (acc * 16 ^ n + v % 16 ^ n) := by
  induction n generalizing acc with
  | zero => simp [hexDigits, hexValue, Nat.mod_one]
  | succ n ih =>
    rw [hexDigits, hexValue, hexDigitVal_hexDigit _ (Nat.mod_lt _ (by norm_num)), Option.some_bind,
      ih, Nat.mod_pow_succ]
    congr 1
    ring

theorem codePoint_toNat (c : Char) : codePoint c.toNat = some c := by
  have h : c.toNat.isValidChar := c.valid
  simp [codePoint, h, Char.ofNat_toNat]

/-- A hex escape of `n` digits reads back every code point below `16 ^ n`. -/
theorem hexEscape_hexDigits {n : Nat} {c : Char} (h : c.toNat < 16 ^ n) :
    hexEscape (hexDigits n c.toNat) = some c := by
  rw [hexEscape, hexValue_hexDigits, Nat.zero_mul, Nat.zero_add, Nat.mod_eq_of_lt h,
    Option.some_bind, codePoint_toNat]

theorem yamlDoubleQuotedBody_raw {c : Char} (rest : List Char) (h₁ : c ≠ '"') (h₂ : c ≠ '\\')
    (hp : isYamlPrintable c = true) (hb : isYamlBreak c = false) :
    yamlDoubleQuotedBody (c :: rest) = (yamlDoubleQuotedBody rest).map (c :: ·) := by
  rw [yamlDoubleQuotedBody.eq_8 c rest (fun h => absurd h h₁) (fun _ _ h => absurd h h₁)
    (fun _ _ _ h => absurd h h₂) (fun _ _ _ _ _ h => absurd h h₂)
    (fun _ _ _ _ _ _ _ _ _ h => absurd h h₂) (fun _ _ h => absurd h h₂)]
  simp [h₂, hp, hb]

theorem yamlDoubleQuotedBody_hexEscape (e : Char) (n v : Nat) (tail : List Char)
    (h : (e = 'x' ∧ n = 2) ∨ (e = 'u' ∧ n = 4) ∨ (e = 'U' ∧ n = 8)) :
    yamlDoubleQuotedBody ('\\' :: e :: (hexDigits n v ++ tail)) =
      (hexEscape (hexDigits n v)).bind fun c => (yamlDoubleQuotedBody tail).map (c :: ·) := by
  rcases h with ⟨rfl, rfl⟩ | ⟨rfl, rfl⟩ | ⟨rfl, rfl⟩ <;> rfl

/-- **YAML decodes each rune Go escapes back to the rune**, whatever follows. -/
theorem yamlDoubleQuotedBody_appendEscapedRune (P : PrintTable) (r : Char) (tail : List Char) :
    yamlDoubleQuotedBody (Strconv.appendEscapedRune P r ++ tail) =
      (yamlDoubleQuotedBody tail).map (r :: ·) := by
  unfold Strconv.appendEscapedRune
  by_cases hq : r = '"' ∨ r = '\\'
  · rw [if_pos hq]
    rcases hq with rfl | rfl <;> rfl
  by_cases hp : P.isPrint r
  · obtain ⟨hy, hb⟩ := P.printable_yaml r hp
    rw [if_neg hq, if_pos hp]
    exact yamlDoubleQuotedBody_raw tail (fun h => hq (.inl h)) (fun h => hq (.inr h)) hy hb
  rw [if_neg hq, if_neg hp]
  split
  all_goals try rfl
  have hr : r.toNat.isValidChar := r.valid
  unfold Nat.isValidChar at hr
  split_ifs with hx hu <;> simp only [List.cons_append]
  · rw [yamlDoubleQuotedBody_hexEscape 'x' 2 _ tail (.inl ⟨rfl, rfl⟩),
      Nat.mod_eq_of_lt (by omega), hexEscape_hexDigits (by norm_num; omega), Option.some_bind]
  · rw [yamlDoubleQuotedBody_hexEscape 'u' 4 _ tail (.inr (.inl ⟨rfl, rfl⟩)),
      hexEscape_hexDigits (by norm_num; omega), Option.some_bind]
  · rw [yamlDoubleQuotedBody_hexEscape 'U' 8 _ tail (.inr (.inr ⟨rfl, rfl⟩)),
      hexEscape_hexDigits (by norm_num; omega), Option.some_bind]

/-- **YAML decodes Go's quoting of every string back to the string.** -/
theorem yamlDoubleQuoted_quote (P : PrintTable) (s : String) :
    yamlDoubleQuoted (Strconv.quote P s) = some s := by
  have body : ∀ l : List Char,
      yamlDoubleQuotedBody (l.flatMap (Strconv.appendEscapedRune P) ++ ['"']) = some l := by
    intro l
    induction l with
    | nil => rfl
    | cons c l ih =>
      rw [List.flatMap_cons, List.append_assoc, yamlDoubleQuotedBody_appendEscapedRune, ih]
      rfl
  simp [yamlDoubleQuoted, Strconv.quote, body]

theorem mem_hexDigits {n v : Nat} {c : Char} (h : c ∈ hexDigits n v) :
    ∃ d < 16, c = hexDigit d := by
  induction n with
  | zero => simp [hexDigits] at h
  | succ n ih =>
    rcases List.mem_cons.1 h with rfl | h
    · exact ⟨_, Nat.mod_lt _ (by norm_num), rfl⟩
    · exact ih h

theorem isYamlBreak_hexDigit : ∀ d, d < 16 → isYamlBreak (hexDigit d) = false := by decide

theorem isYamlBreak_of_mem_hexEscape {e c : Char} {n v : Nat} (he : isYamlBreak e = false)
    (h : c ∈ '\\' :: e :: hexDigits n v) : isYamlBreak c = false := by
  rcases List.mem_cons.1 h with rfl | h
  · rfl
  rcases List.mem_cons.1 h with rfl | h
  · exact he
  obtain ⟨d, hd, rfl⟩ := mem_hexDigits h
  exact isYamlBreak_hexDigit d hd

/-- No rune Go escapes turns into a line break. -/
theorem isYamlBreak_of_mem_appendEscapedRune (P : PrintTable) {r c : Char}
    (h : c ∈ Strconv.appendEscapedRune P r) : isYamlBreak c = false := by
  unfold Strconv.appendEscapedRune at h
  by_cases hq : r = '"' ∨ r = '\\'
  · rw [if_pos hq] at h
    rcases hq with rfl | rfl <;> simp only [List.mem_cons, List.not_mem_nil, or_false] at h <;>
      rcases h with rfl | rfl <;> rfl
  by_cases hp : P.isPrint r
  · rw [if_neg hq, if_pos hp, List.mem_singleton] at h
    exact h ▸ (P.printable_yaml r hp).2
  rw [if_neg hq, if_neg hp] at h
  split at h
  all_goals try (simp only [List.mem_cons, List.not_mem_nil, or_false] at h; rcases h with rfl | rfl <;> rfl)
  split_ifs at h <;> exact isYamlBreak_of_mem_hexEscape (by rfl) h

/-- **Go's quoting of a string is one line for YAML.** -/
theorem quote_no_break (P : PrintTable) (s : String) :
    ∀ c ∈ (Strconv.quote P s).data, isYamlBreak c = false := by
  intro c h
  simp only [Strconv.quote, List.mem_cons, List.mem_append, List.mem_flatMap,
    List.not_mem_nil, or_false] at h
  rcases h with (rfl | ⟨r, -, hr⟩) | rfl
  · rfl
  · exact isYamlBreak_of_mem_appendEscapedRune P hr
  · rfl

end Woodpecker
