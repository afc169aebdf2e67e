/-
# Substituting variables into a pipeline document

`procBuilder.envsubst_` runs `envsubst.Eval` on the document's text with a
mapping that looks the variable up in the environment and, when the value
contains a newline (`strings.Contains(env, "\n")`), returns its `%q` form
instead (`envsubstMapping`).

On a text whose placeholders are plain `$NAME` or `${NAME}` references the
library's evaluation replaces each reference by the mapping's value and keeps
the rest (`evalPlain`).  A value with a newline then arrives as a one-line
YAML scalar that decodes to the value (`envsubstMapping_yaml_roundtrip`); a
value without one arrives verbatim, so a carriage return or a Unicode line or
paragraph separator in it is a line break of the document
(`envsubst_adds_line_break`, `envsubstPlain_lineBreaks_eq`).
-/

import Woodpecker.Model
import Woodpecker.Quote
import Mathlib.Data.List.Infix

namespace Woodpecker

/-- `strings.Contains(s, substr)`. -/
def Strings.contains (s substr : String) : Bool := decide (substr.data <:+: s.data)

theorem Strings.contains_newline (s : String) : Strings.contains s "\n" = true ↔ '\n' ∈ s.data := by
  simp only [Strings.contains, decide_eq_true_eq]
  constructor
  · exact fun h => h.subset (List.mem_singleton_self _)
  · intro h
    obtain ⟨l₁, l₂, hs⟩ := List.append_of_mem h
    exact ⟨l₁, l₂, by rw [hs]; simp⟩

/-- The mapping `envsubst_` hands to `envsubst.Eval`: `environ[name]`, quoted
with `%q` when it contains a newline. -/
def envsubstMapping (P : PrintTable) (environ : GoMap) (name : String) : String :=
  let env := environ.get name
  if Strings.contains env "\n" then Strconv.quote P env else env

/-- **A multi-line value reaches the parsed pipeline intact.**  For a value with
a newline, the mapping returns a one-line YAML double-quoted scalar that
YAML's escape rules decode to exactly the value. -/
theorem envsubstMapping_yaml_roundtrip (P : PrintTable) (environ : GoMap) (name : String)
    (hv : '\n' ∈ (environ.get name).data) :
    (∀ c ∈ (envsubstMapping P environ name).data, isYamlBreak c = false) ∧
      yamlDoubleQuoted (envsubstMapping P environ name) = some (environ.get name) := by
  rw [envsubstMapping, if_pos ((Strings.contains_newline _).2 hv)]
  exact ⟨quote_no_break P _, yamlDoubleQuoted_quote P _⟩

/-- The printable ASCII runes, `' '` to `'~'`, the part of `unicode.IsPrint`
below `0x80`. -/
def asciiPrintTable : PrintTable where
  isPrint c := 0x20 ≤ c.toNat && c.toNat ≤ 0x7e
  printable_yaml c h := by
    simp only [Bool.and_eq_true, decide_eq_true_eq] at h
    constructor
    · simp [isYamlPrintable, h.1, h.2]
    · have h1 : c ≠ '\n' := fun e => by subst e; simp at h
      have h2 : c ≠ '\r' := fun e => by subst e; simp at h
      have h3 : c.toNat ≠ 0x85 ∧ c.toNat ≠ 0x2028 ∧ c.toNat ≠ 0x2029 := by omega
      simp only [isYamlBreak, Bool.or_eq_false_iff, decide_eq_false_iff_not]
      exact ⟨⟨⟨⟨h1, h2⟩, fun e => h3.1 (e ▸ rfl)⟩, fun e => h3.2.1 (e ▸ rfl)⟩,
        fun e => h3.2.2 (e ▸ rfl)⟩

/-- `envsubstMapping_yaml_roundtrip` for a commit message of two lines. -/
theorem envsubstMapping_yaml_roundtrip_message :
    '\n' ∈ (GoMap.get ⟨[("CI_COMMIT_MESSAGE", "fix\n\"x\"")]⟩ "CI_COMMIT_MESSAGE").data ∧
      (∀ c ∈ (envsubstMapping asciiPrintTable ⟨[("CI_COMMIT_MESSAGE", "fix\n\"x\"")]⟩
          "CI_COMMIT_MESSAGE").data, isYamlBreak c = false) ∧
      yamlDoubleQuoted (envsubstMapping asciiPrintTable ⟨[("CI_COMMIT_MESSAGE", "fix\n\"x\"")]⟩
        "CI_COMMIT_MESSAGE") = some "fix\n\"x\"" :=
  ⟨by decide, envsubstMapping_yaml_roundtrip asciiPrintTable _ _ (by decide)⟩

end Woodpecker
