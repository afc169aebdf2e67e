/-
# The fixed points of `sanitizePath`

`sanitizePath` (`server/procBuilder.go`) strips one `.yml` suffix, then the
config folder, then one leading dot, with `strings.TrimSuffix` and
`strings.TrimPrefix`, each of which removes its affix at most once.  A second
call strips again whenever the first leaves a name that still ends in `.yml`,
starts with the folder or starts with a dot (`a.yml.yml`, `ci/ci/a.yml`,
`..a.yml`), so `sanitizePath` is not idempotent.

Each trim keeps its input or shortens it.  A run of trims therefore gives
back its input exactly when every trim keeps it, which characterises the
fixed points of `sanitizePath`, and so the names on which a second call
changes nothing.
-/

import Woodpecker.Model

namespace Woodpecker

namespace Strings

/-- `strings.TrimSuffix` keeps its input or shortens it. -/
theorem trimSuffix_eq_or_length_lt (s suffix : String) :
    trimSuffix s suffix = s ∨ (trimSuffix s suffix).data.length < s.data.length := by
  unfold trimSuffix
  split_ifs with hs
  · rcases Nat.eq_zero_or_pos suffix.data.length with h | h
    · left
      rw [h, Nat.sub_zero, List.take_length]
    · right
      have := hs.length_le
      simp only [List.length_take]
      omega
  · exact .inl rfl

/-- `strings.TrimPrefix` keeps its input or shortens it. -/
theorem trimPrefix_eq_or_length_lt (s pre : String) :
    trimPrefix s pre = s ∨ (trimPrefix s pre).data.length < s.data.length := by
  unfold trimPrefix
  split_ifs with hs
  · rcases Nat.eq_zero_or_pos pre.data.length with h | h
    · left
      rw [h, List.drop_zero]
    · right
      have := hs.length_le
      simp only [List.length_drop]
      omega
  · exact .inl rfl

theorem trimPrefix_length_le (s pre : String) :
    (trimPrefix s pre).data.length ≤ s.data.length :=
  (trimPrefix_eq_or_length_lt s pre).elim (fun h => by rw [h]) le_of_lt

/-- `strings.TrimSuffix` keeps exactly the strings without the (non-empty) suffix. -/
theorem trimSuffix_eq_self_iff {s suffix : String} (h : suffix ≠ "") :
    trimSuffix s suffix = s ↔ ¬ suffix.data <:+ s.data := by
  unfold trimSuffix
  split_ifs with hs
  · refine iff_of_false (fun heq => ?_) (not_not.2 hs)
    have hlen := congrArg (fun t : String => t.data.length) heq
    have := hs.length_le
    have := List.length_pos.2 fun h' => h (String.ext_iff.2 h')
    simp only [List.length_take] at hlen
    omega
  · exact iff_of_true rfl hs

/-- `strings.TrimPrefix` keeps exactly the strings without the prefix, and
every string when the prefix is empty. -/
theorem trimPrefix_eq_self_iff {s pre : String} :
    trimPrefix s pre = s ↔ pre = "" ∨ ¬ pre.data <+: s.data := by
  unfold trimPrefix
  split_ifs with hs
  · refine ⟨fun h => .inl ?_, ?_⟩
    · have hlen := congrArg (fun t : String => t.data.length) h
      have := hs.length_le
      simp only [List.length_drop] at hlen
      exact String.ext_iff.2 (List.length_eq_zero.1 (by omega))
    · rintro (rfl | h)
      · rfl
      · exact absurd hs h
  · exact iff_of_true rfl (.inr hs)

end Strings

/-- `sanitizePath` keeps a name exactly when each of its three trims does. -/
theorem sanitizePath_eq_self_iff_trims (path configFolder : String) :
    sanitizePath path configFolder = path ↔
      Strings.trimSuffix path ".yml" = path ∧ Strings.trimPrefix path configFolder = path ∧
        Strings.trimPrefix path "." = path := by
  constructor
  · intro h
    simp only [sanitizePath] at h
    have h₃ := Strings.trimPrefix_length_le
      (Strings.trimPrefix (Strings.trimSuffix path ".yml") configFolder) "."
    have h₂ := Strings.trimPrefix_length_le (Strings.trimSuffix path ".yml") configFolder
    rw [show Strings.trimPrefix _ "." = path from h] at h₃
    have ha : Strings.trimSuffix path ".yml" = path :=
      (Strings.trimSuffix_eq_or_length_lt path ".yml").resolve_right (by omega)
    rw [ha] at h h₂ h₃
    have hb : Strings.trimPrefix path configFolder = path :=
      (Strings.trimPrefix_eq_or_length_lt path configFolder).resolve_right (by omega)
    rw [hb] at h
    exact ⟨ha, hb, h⟩
  · rintro ⟨ha, hb, hc⟩
    simp only [sanitizePath, ha, hb, hc]

/-- **The fixed points of `sanitizePath`**: the names that do not end in
`.yml`, do not start with a dot, and do not start with the config folder
unless it is empty. -/
theorem sanitizePath_eq_self_iff (path configFolder : String) :
    sanitizePath path configFolder = path ↔
      ¬ ".yml".data <:+ path.data ∧ (configFolder = "" ∨ ¬ configFolder.data <+: path.data) ∧
        ¬ ".".data <+: path.data := by
  rw [sanitizePath_eq_self_iff_trims, Strings.trimSuffix_eq_self_iff (by decide),
    Strings.trimPrefix_eq_self_iff, Strings.trimPrefix_eq_self_iff]
  simp only [show (".".data : List Char) ≠ [] from List.cons_ne_nil _ _, String.ext_iff, false_or]

/-- **A second `sanitizePath` strips again.**  With the folder
`.woodpecker/`, the document `.woodpecker/a.yml.yml` sanitizes to `a.yml`,
and that to `a`. -/
theorem sanitizePath_twice_strips_again :
    ¬ ∀ x c : String, sanitizePath (sanitizePath x c) c = sanitizePath x c :=
  fun h => absurd (h ".woodpecker/a.yml.yml" ".woodpecker/") (by decide)

/-- **When sanitizing twice changes nothing**: exactly when the first result
does not end in `.yml`, does not start with a dot, and does not start with
the config folder unless that is empty. -/
theorem sanitizePath_sanitizePath_eq_iff (x c : String) :
    sanitizePath (sanitizePath x c) c = sanitizePath x c ↔
      ¬ ".yml".data <:+ (sanitizePath x c).data ∧
        (c = "" ∨ ¬ c.data <+: (sanitizePath x c).data) ∧ ¬ ".".data <+: (sanitizePath x c).data :=
  sanitizePath_eq_self_iff (sanitizePath x c) c

example : sanitizePath (sanitizePath ".woodpecker/build.yml" ".woodpecker/") ".woodpecker/" =
    sanitizePath ".woodpecker/build.yml" ".woodpecker/" := by decide

end Woodpecker
