/-
# The records the build planner reads and writes

`server/procBuilder.go` works on records of several packages: `model`
(`Proc`, `Repo`, `Build`, `Netrc`, `Secret`, `Registry`), `remote`
(`FileMeta`), `backend` (the compiled `Config`), `frontend` (the `Metadata`
handed to substitution and compilation), `yaml` (the parsed pipeline) and
`compiler` (the options of `compiler.New`).  Each is a structure here with the
fields the planner touches; a Go `int` is an `Int`, a Go `map[string]string`
is a `GoMap`, and a Go `string` is a `String`.

The package also holds the two pure string helpers of the planner,
`sanitizePath` and its `strings.TrimSuffix` / `strings.TrimPrefix`, and the
inversion lemmas of `Except` through which the early returns are read.
-/

import Mathlib.Data.List.Basic

namespace Woodpecker

/-- A Go `map[string]string` by its entries, one per key.  Indexing a missing
key gives `""`, as `environ[name]` does. -/
structure GoMap where
  entries : List (String × String)
  deriving DecidableEq, Repr

namespace GoMap

/-- The empty map, `map[string]string{}` and also `matrix.Axis{}`. -/
def empty : GoMap := ⟨[]⟩

/-- `m[k]`: the value of `k`, `""` when `k` is not a key. -/
def get (m : GoMap) (k : String) : String := (m.entries.lookup k).getD ""

/-- `m[k] = v`: the entry of `k` is replaced. -/
def set (m : GoMap) (k v : String) : GoMap := ⟨(k, v) :: m.entries.filter (·.1 != k)⟩

/-- `for k, v := range src { m[k] = v }`: every entry of `src` overwrites `m`. -/
def setAll (m src : GoMap) : GoMap := src.entries.foldl (fun m e => m.set e.1 e.2) m

/-- The keys of `m`; those of a Go map are distinct. -/
def keys (m : GoMap) : List String := m.entries.map Prod.fst

theorem lookup_filter_ne {l : List (String × String)} {k k' : String} (h : k' ≠ k) :
    (l.filter (·.1 != k)).lookup k' = l.lookup k' := by
  induction l with
  | nil => rfl
  | cons e l ih =>
    obtain ⟨a, b⟩ := e
    by_cases ha : a = k
    · subst ha
      simp [List.filter_cons, List.lookup_cons, ih, beq_false_of_ne h]
    · simp [List.filter_cons, ha, List.lookup_cons, ih]

@[simp] theorem get_set_self (m : GoMap) (k v : String) : (m.set k v).get k = v := by
  simp [get, set, List.lookup_cons]

theorem get_set_of_ne (m : GoMap) {k k' : String} (v : String) (h : k' ≠ k) :
    (m.set k v).get k' = m.get k' := by
  simp [get, set, List.lookup_cons, beq_false_of_ne h, lookup_filter_ne h]

theorem get_cons_of_ne {l : List (String × String)} {a b k : String} (h : k ≠ a) :
    get ⟨(a, b) :: l⟩ k = get ⟨l⟩ k := by
  simp [get, List.lookup_cons, beq_false_of_ne h]

/-- After the overwriting loop, a key of `src` holds its value in `src`, any
other key its value in `m`. -/
theorem get_setAll (m src : GoMap) (k : String) (h : src.keys.Nodup) :
    (m.setAll src).get k = if k ∈ src.keys then src.get k else m.get k := by
  obtain ⟨l⟩ := src
  induction l generalizing m with
  | nil => simp [setAll, keys]
  | cons e l ih =>
    obtain ⟨a, b⟩ := e
    simp only [keys, List.map_cons, List.nodup_cons] at h
    simp only [setAll, List.foldl_cons] at ih ⊢
    rw [ih _ h.2]
    by_cases hk : k = a
    · subst hk
      rw [if_neg (by simpa [keys] using h.1), get_set_self, if_pos (by simp [keys])]
      simp [get, List.lookup_cons]
    · simp only [keys, List.map_cons, List.mem_cons, hk, false_or, get_set_of_ne _ _ hk,
        get_cons_of_ne hk]

end GoMap

/-- The process states of `model` (`model.StatusSkipped`, `model.StatusPending`, ...). -/
inductive Status
  | skipped | pending | running | success | failure | killed | error | blocked | declined
  deriving DecidableEq, Repr

/-- `model.Proc`: one process of a build, a top-level item or one of its steps. -/
structure Proc where
  id : Int := 0
  buildID : Int := 0
  pid : Int := 0
  ppid : Int := 0
  pgid : Int := 0
  name : String := ""
  state : Status := .pending
  environ : GoMap := .empty
  deriving DecidableEq, Repr

/-- `model.Repo`, the fields the planner reads. -/
structure Repo where
  fullName : String
  link : String
  clone : String
  branch : String
  isPrivate : Bool
  isTrusted : Bool
  config : String
  deriving DecidableEq, Repr

/-- `model.Build`: a build record and the processes stored with it. -/
structure Build where
  id : Int := 0
  number : Int := 0
  parent : Int := 0
  event : String := ""
  status : Status := .pending
  created : Int := 0
  started : Int := 0
  finished : Int := 0
  deploy : String := ""
  commit : String := ""
  branch : String := ""
  ref : String := ""
  refspec : String := ""
  message : String := ""
  author : String := ""
  avatar : String := ""
  email : String := ""
  link : String := ""
  changedFiles : List String := []
  procs : List Proc := []
  deriving DecidableEq, Repr

/-- `model.Netrc`: the clone credentials. -/
structure Netrc where
  machine : String
  login : String
  password : String
  deriving DecidableEq, Repr

/-- `model.Secret`; `events` is the allow-list that `Secret.Match` reads. -/
structure Secret where
  name : String
  value : String
  images : List String
  events : List String
  deriving DecidableEq, Repr

/-- `model.Registry`. -/
structure Registry where
  address : String
  username : String
  password : String
  email : String
  deriving DecidableEq, Repr

/-- `remote.FileMeta`: one pipeline document, its name and its text. -/
structure FileMeta where
  name : String
  data : String
  deriving DecidableEq, Repr

namespace Backend

/-- `backend.Step`: `name` is the container name the compiler derives from the
prefix, `alias'` (Go's `Alias`) the step's name in the document. -/
structure Step where
  name : String
  alias' : String
  deriving DecidableEq, Repr

/-- `backend.Stage`: steps scheduled together. -/
structure Stage where
  steps : List Step
  deriving DecidableEq, Repr

/-- `backend.Config`, the compiled pipeline: its stages in order. -/
structure Config where
  stages : List Stage
  deriving DecidableEq, Repr

end Backend

namespace Yaml

/-- `yaml.Constraint`, the `branches` filter; `Match` is external. -/
structure Constraint where
  include' : List String
  exclude : List String
  deriving DecidableEq, Repr

/-- `yaml.Config`, the parsed document: the sections the planner reads, and the
pipeline sections it hands on to the linter and the compiler (`sections`). -/
structure Config where
  branches : Constraint
  platform : String
  labels : GoMap
  dependsOn : List String
  runsOn : List String
  sections : String
  deriving DecidableEq, Repr

end Yaml

/-- `buildItem`: one compiled (document, axis) pair awaiting flattening. -/
structure BuildItem where
  proc : Proc
  platform : String := ""
  labels : GoMap := .empty
  dependsOn : List String := []
  runsOn : List String := []
  config : Backend.Config := ⟨[]⟩
  deriving DecidableEq, Repr

namespace Strings

/-- `strings.TrimSuffix(s, suffix)`. -/
def trimSuffix (s suffix : String) : String :=
  if suffix.data <:+ s.data then ⟨s.data.take (s.data.length - suffix.data.length)⟩ else s

/-- `strings.TrimPrefix(s, pre)`. -/
def trimPrefix (s pre : String) : String :=
  if pre.data <+: s.data then ⟨s.data.drop pre.data.length⟩ else s

end Strings

/-! The inversion lemmas of `Except` that the early returns need. -/

namespace Except

theorem bind_eq_ok {ε α β : Type} {x : Except ε α} {f : α → Except ε β} {b : β} :
    x >>= f = .ok b ↔ ∃ a, x = .ok a ∧ f a = .ok b := by
  cases x <;> simp [bind, Except.bind]

theorem bind_eq_error {ε α β : Type} {x : Except ε α} {f : α → Except ε β} {e : ε} :
    x >>= f = .error e ↔ x = .error e ∨ ∃ a, x = .ok a ∧ f a = .error e := by
  cases x <;> simp [bind, Except.bind]

@[simp] theorem ok_bind {ε α β : Type} (a : α) (f : α → Except ε β) :
    (Except.ok a >>= f) = f a := rfl

end Except

/-- `sanitizePath`: a document's name without `.yml`, the config folder and a
leading dot, the name its build item carries. -/
def sanitizePath (path configFolder : String) : String :=
  let path := Strings.trimSuffix path ".yml"
  let path := Strings.trimPrefix path configFolder
  Strings.trimPrefix path "."

example : sanitizePath ".woodpecker/a.yml" ".woodpecker/" = "a" := by decide

end Woodpecker
