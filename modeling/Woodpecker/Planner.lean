/-
# `procBuilder.Build`

`server/procBuilder.go`: `Build` sorts the documents by name, and for each
document and each axis of its matrix builds a process descriptor, the job's
metadata and environment, substitutes, parses, lints, decides the skip state,
and compiles; an item whose compiled configuration has no stage is dropped
without taking a PID.  The items then go through
`filterItemsWithMissingDependencies`.

The libraries `Build` calls (matrix, envsubst, yaml, linter, compiler, the
metadata methods of `frontend`, `Secret.Match`, `url.Parse`, `sort.Sort` and
`rand.Int`) are the fields of `Packages`.  `compiler.New(opts...).Compile` is
one function of the option list, and the options are data
(`CompilerOption`), so what `toInternalRepresentation` passes to the compiler
can be read off.  The server-wide `Config.Pipeline` is a `PipelineConfig`.
-/

import Woodpecker.Dependencies
import Woodpecker.Envsubst
import Mathlib.Data.String.Basic

namespace Woodpecker

namespace Frontend

/-- `frontend.Repo`. -/
structure Repo where
  name : String
  link : String
  remote : String
  private' : Bool
  branch : String
  deriving DecidableEq, Repr

/-- `frontend.Author`. -/
structure Author where
  name : String
  email : String
  avatar : String
  deriving DecidableEq, Repr

/-- `frontend.Commit`. -/
structure Commit where
  sha : String
  ref : String
  refspec : String
  branch : String
  message : String
  author : Author
  changedFiles : List String
  deriving DecidableEq, Repr

/-- `frontend.Build`. -/
structure Build where
  number : Int
  parent : Int := 0
  created : Int
  started : Int
  finished : Int
  status : Status
  event : String
  link : String
  target : String
  commit : Commit
  deriving DecidableEq, Repr

/-- `frontend.Job`: the job number and its matrix axis. -/
structure Job where
  number : Int
  matrix : GoMap
  deriving DecidableEq, Repr

/-- `frontend.System`. -/
structure System where
  name : String
  link : String
  host : String
  arch : String
  deriving DecidableEq, Repr

/-- `frontend.Metadata`. -/
structure Metadata where
  repo : Repo
  curr : Build
  prev : Build
  job : Job
  sys : System
  deriving DecidableEq, Repr

end Frontend

namespace Compiler

/-- `compiler.Secret`. -/
structure Secret where
  name : String
  value : String
  match' : List String
  deriving DecidableEq, Repr

/-- `compiler.Registry`. -/
structure Registry where
  hostname : String
  username : String
  password : String
  email : String
  deriving DecidableEq, Repr

end Compiler

/-- The `compiler.Option`s `toInternalRepresentation` builds, one constructor
per option function; `noop` is the option `compiler.WithOption(o, false)`
returns, which changes nothing. -/
inductive CompilerOption
  | withEnviron (environ : GoMap)
  | withEscalated (images : List String)
  | withResourceLimit (swap mem shmsize cpuQuota cpuShares : Int) (cpuSet : String)
  | withVolumes (volumes : List String)
  | withNetworks (networks : List String)
  | withLocal (isLocal : Bool)
  | withNetrc (login password machine : String)
  | withRegistry (registries : List Compiler.Registry)
  | withSecret (secrets : List Compiler.Secret)
  | withPrefix (name : String)
  | withProxy
  | withWorkspaceFromURL (base link : String)
  | withMetadata (metadata : Frontend.Metadata)
  | noop
  deriving DecidableEq, Repr

/-- `compiler.WithOption(option, b)`: the option when `b`, else nothing. -/
def CompilerOption.withOption (option : CompilerOption) (b : Bool) : CompilerOption :=
  if b then option else .noop

/-- `Config.Pipeline.Limits`. -/
structure Limits where
  memSwapLimit : Int
  memLimit : Int
  shmSize : Int
  cpuQuota : Int
  cpuShares : Int
  cpuSet : String
  deriving DecidableEq, Repr

/-- `Config.Pipeline`, the server-wide settings the compiler receives. -/
structure PipelineConfig where
  privileged : List String
  limits : Limits
  volumes : List String
  networks : List String
  deriving DecidableEq, Repr

/-- The library functions `Build` calls.  `sortByName` is `sort.Sort` with
`remote.ByName`, which returns the documents reordered by ascending name (its
order among equal names unspecified); `randInt n` is what the `n`-th call of
`rand.Int()` returns. -/
structure Packages where
  sortByName : List FileMeta → List FileMeta
  sortByName_perm : ∀ l, (sortByName l).Perm l
  sortByName_sorted : ∀ l, (sortByName l).Pairwise fun a b => a.name ≤ b.name
  matrixParseString : String → Except String (List GoMap)
  envsubstEval : String → (String → String) → Except String String
  yamlParseString : String → Except String Yaml.Config
  lint : Bool → Yaml.Config → Option String
  branchesMatch : Yaml.Constraint → String → Bool
  compile : List CompilerOption → Yaml.Config → Backend.Config
  environ : Frontend.Metadata → GoMap
  environDrone : Frontend.Metadata → GoMap
  setPlatform : Frontend.Metadata → String → Frontend.Metadata
  secretMatch : Secret → String → Bool
  urlHost : String → Option String
  randInt : Nat → Nat
  printTable : PrintTable

/-- `procBuilder`, the planner's input. -/
structure ProcBuilder where
  repo : Repo
  curr : Build
  last : Build
  netrc : Netrc
  secs : List Secret
  regs : List Registry
  link : String
  yamls : List FileMeta
  envs : GoMap

/-! ### A library instance

The theorems hold for every `Packages`; the one below is where they are run.
-/

/-- The prefix the options set; as in `compiler.New`, a later `WithPrefix`
overrides an earlier one. -/
def CompilerOption.prefixOf (opts : List CompilerOption) : String :=
  opts.foldl (fun name o => match o with | .withPrefix name' => name' | _ => name) ""

/-- A library instance in which every document has the matrix `axes`, no
variable is substituted, the document parses to itself with no filters, the
linter accepts everything, every branch matches, a secret matches the events
its allow-list names (every event when the list is empty), and the compiler
turns a document into one stage of one step named after the prefix.
`rand.Int()` returns 7 at every call. -/
def samplePackages (axes : List GoMap) : Packages where
  sortByName l := l.mergeSort fun a b => decide (a.name ≤ b.name)
  sortByName_perm l := List.mergeSort_perm l _
  sortByName_sorted l := by
    simpa using @List.sorted_mergeSort FileMeta (fun a b => decide (a.name ≤ b.name))
      (fun _ _ _ h₁ h₂ => by simp only [decide_eq_true_eq] at *; exact le_trans h₁ h₂)
      (fun a b => by simpa using le_total a.name b.name) l
  matrixParseString _ := .ok axes
  envsubstEval y _ := .ok y
  yamlParseString s := .ok { branches := ⟨[], []⟩, platform := "", labels := .empty,
                             dependsOn := [], runsOn := [], sections := s }
  lint _ _ := none
  branchesMatch _ _ := true
  compile opts _ := { stages := [⟨[⟨CompilerOption.prefixOf opts ++ "_step_0", "build"⟩]⟩] }
  environ _ := .empty
  environDrone _ := .empty
  setPlatform metadata _ := metadata
  secretMatch sec event := sec.events.isEmpty || sec.events.contains event
  urlHost _ := none
  randInt _ := 7
  printTable := asciiPrintTable

/-- The matrix of two Go versions. -/
def sampleAxes : List GoMap :=
  [⟨[("GO_VERSION", "1.10")]⟩, ⟨[("GO_VERSION", "1.11")]⟩]

/-- Server settings with no privileged image, limit, volume or network. -/
def samplePipelineConfig : PipelineConfig :=
  { privileged := [], limits := ⟨0, 0, 0, 0, 0, ""⟩, volumes := [], networks := [] }

/-- A push to the default branch of a public repository with one document,
a secret for pushes and one for deployments. -/
def sampleBuilder : ProcBuilder where
  repo := { fullName := "team/app", link := "", clone := "", branch := "master",
            isPrivate := false, isTrusted := false, config := ".drone.yml" }
  curr := { id := 1, number := 1, event := "push", branch := "master" }
  last := {}
  netrc := { machine := "git", login := "ci", password := "token" }
  secs := [{ name := "docker_password", value := "p", images := [], events := ["push"] },
           { name := "deploy_key", value := "k", images := [], events := ["deployment"] }]
  regs := []
  link := ""
  yamls := [{ name := ".drone.yml", data := "pipeline" }]
  envs := .empty

variable (P : Packages) (cfg : PipelineConfig)

/-- `metadataFromStruct`; the host is `url.Parse(link).Host`, or `link` when
it does not parse. -/
def metadataFromStruct (repo : Repo) (build last : Build) (proc : Proc) (link : String) :
    Frontend.Metadata :=
  let host := (P.urlHost link).getD link
  { repo := { name := repo.fullName, link := repo.link, remote := repo.clone,
              private' := repo.isPrivate, branch := repo.branch }
    curr := { number := build.number, parent := build.parent, created := build.created,
              started := build.started, finished := build.finished, status := build.status,
              event := build.event, link := build.link, target := build.deploy,
              commit := { sha := build.commit, ref := build.ref, refspec := build.refspec,
                          branch := build.branch, message := build.message,
                          author := { name := build.author, email := build.email,
                                      avatar := build.avatar },
                          changedFiles := build.changedFiles } }
    prev := { number := last.number, created := last.created, started := last.started,
              finished := last.finished, status := last.status, event := last.event,
              link := last.link, target := last.deploy,
              commit := { sha := last.commit, ref := last.ref, refspec := last.refspec,
                          branch := last.branch, message := last.message,
                          author := { name := last.author, email := last.email,
                                      avatar := last.avatar },
                          changedFiles := last.changedFiles } }
    job := { number := proc.pid, matrix := proc.environ }
    sys := { name := "drone", link, host, arch := "linux/amd64" } }

/-- `environmentVariables`: the metadata's environment, overwritten by its
legacy names, overwritten by the axis. -/
def environmentVariables (metadata : Frontend.Metadata) (axis : GoMap) : GoMap :=
  ((P.environ metadata).setAll (P.environDrone metadata)).setAll axis

/-- **The axis wins, then the legacy names, then the metadata.**  The keys of
a Go map are distinct, so each overwriting loop leaves at a key the value of
the last map that has it. -/
theorem environmentVariables_get (metadata : Frontend.Metadata) (axis : GoMap) (k : String)
    (hdrone : (P.environDrone metadata).keys.Nodup) (haxis : axis.keys.Nodup) :
    (environmentVariables P metadata axis).get k =
      if k ∈ axis.keys then axis.get k
      else if k ∈ (P.environDrone metadata).keys then (P.environDrone metadata).get k
      else (P.environ metadata).get k := by
  rw [environmentVariables, GoMap.get_setAll _ _ _ haxis, GoMap.get_setAll _ _ _ hdrone]

/-- Three maps that share keys: the metadata environment has `CI_BRANCH`,
`DRONE_BRANCH` and `GO_VERSION`, the legacy names `DRONE_BRANCH` and
`GO_VERSION`, the axis `GO_VERSION`.  The axis's `GO_VERSION` and the legacy
`DRONE_BRANCH` win; `CI_BRANCH` comes from the metadata. -/
theorem environmentVariables_get_axis :
    let P' : Packages := { samplePackages sampleAxes with
      environ := fun _ => ⟨[("CI_BRANCH", "main"), ("DRONE_BRANCH", "main"), ("GO_VERSION", "1.9")]⟩
      environDrone := fun _ => ⟨[("DRONE_BRANCH", "master"), ("GO_VERSION", "1.8")]⟩ }
    let md := metadataFromStruct (samplePackages sampleAxes) sampleBuilder.repo sampleBuilder.curr
      sampleBuilder.last {} sampleBuilder.link
    let axis : GoMap := ⟨[("GO_VERSION", "1.10")]⟩
    (P'.environDrone md).keys.Nodup ∧ axis.keys.Nodup ∧
      (environmentVariables P' md axis).get "GO_VERSION" = "1.10" ∧
      (environmentVariables P' md axis).get "DRONE_BRANCH" = "master" ∧
      (environmentVariables P' md axis).get "CI_BRANCH" = "main" :=
  have hdrone : (GoMap.keys ⟨[("DRONE_BRANCH", "master"), ("GO_VERSION", "1.8")]⟩).Nodup := by decide
  have haxis : (GoMap.keys ⟨[("GO_VERSION", "1.10")]⟩).Nodup := by decide
  ⟨hdrone, haxis, (environmentVariables_get _ _ _ "GO_VERSION" hdrone haxis).trans (by decide),
    (environmentVariables_get _ _ _ "DRONE_BRANCH" hdrone haxis).trans (by decide),
    (environmentVariables_get _ _ _ "CI_BRANCH" hdrone haxis).trans (by decide)⟩

/-- `envsubst_`. -/
def envsubst_ (y : String) (environ : GoMap) : Except String String :=
  P.envsubstEval y (envsubstMapping P.printTable environ)

namespace ProcBuilder

variable (b : ProcBuilder)

/-- `toInternalRepresentation`, with `r` the value its call of `rand.Int()` returns. -/
def toInternalRepresentation (parsed : Yaml.Config) (environ : GoMap)
    (metadata : Frontend.Metadata) (procID : Int) (r : Nat) : Backend.Config :=
  let secrets := b.secs.filterMap fun sec =>
    if P.secretMatch sec b.curr.event then some ⟨sec.name, sec.value, sec.images⟩ else none
  let registries := b.regs.map fun reg => ⟨reg.address, reg.username, reg.password, reg.email⟩
  P.compile
    [.withEnviron environ,
     .withEnviron b.envs,
     .withEscalated cfg.privileged,
     .withResourceLimit cfg.limits.memSwapLimit cfg.limits.memLimit cfg.limits.shmSize
       cfg.limits.cpuQuota cfg.limits.cpuShares cfg.limits.cpuSet,
     .withVolumes cfg.volumes,
     .withNetworks cfg.networks,
     .withLocal false,
     CompilerOption.withOption (.withNetrc b.netrc.login b.netrc.password b.netrc.machine)
       b.repo.isPrivate,
     .withRegistry registries,
     .withSecret secrets,
     .withPrefix (toString procID ++ "_" ++ toString r),
     .withProxy,
     .withWorkspaceFromURL "/drone" b.repo.link,
     .withMetadata metadata]
    parsed

/-- The descriptor `Build` creates for document `y` and `axis` under `pid`. -/
def newProc (pid : Int) (y : FileMeta) (axis : GoMap) : Proc :=
  { buildID := b.curr.id, pid, pgid := pid, state := .pending, environ := axis,
    name := sanitizePath y.name b.repo.config }

/-- The inner loop's body up to the stage check: the item for document `y`
and `axis` under `pid`, `r` being what `rand.Int()` returns.  (`Labels` is
never `nil` here: a Go `nil` map and an empty one are both `GoMap.empty`.) -/
def compileItem (pid : Int) (r : Nat) (y : FileMeta) (axis : GoMap) : Except String BuildItem := do
  let proc := b.newProc pid y axis
  let metadata := metadataFromStruct P b.repo b.curr b.last proc b.link
  let environ := environmentVariables P metadata axis
  let substituted ← envsubst_ P y.data environ
  let parsed ← P.yamlParseString substituted
  if let some lerr := P.lint b.repo.isTrusted parsed then throw lerr
  let proc := if !P.branchesMatch parsed.branches b.curr.branch then
    { proc with state := .skipped } else proc
  let metadata := P.setPlatform metadata parsed.platform
  let ir := b.toInternalRepresentation P cfg parsed environ metadata proc.id r
  pure { proc, config := ir, labels := parsed.labels, dependsOn := parsed.dependsOn,
         runsOn := parsed.runsOn, platform := metadata.sys.arch }

end ProcBuilder

/-- The variables of `Build`'s loops: the items, `pidSequence`, and how many
times `rand.Int()` has been called. -/
structure BuildState where
  items : List BuildItem
  pidSequence : Int
  draws : Nat

namespace ProcBuilder

variable (b : ProcBuilder)

/-- The inner loop's body: an item without stages is dropped (`continue`)
before `pidSequence++`. -/
def buildAxis (y : FileMeta) (st : BuildState) (axis : GoMap) : Except String BuildState := do
  let item ← b.compileItem P cfg st.pidSequence (P.randInt st.draws) y axis
  if item.config.stages.length = 0 then
    return { st with draws := st.draws + 1 }
  return { items := st.items ++ [item], pidSequence := st.pidSequence + 1, draws := st.draws + 1 }

/-- The outer loop's body: the matrix axes (one empty axis when there are
none), then the inner loop. -/
def buildYaml (st : BuildState) (y : FileMeta) : Except String BuildState := do
  let axes ← P.matrixParseString y.data
  let axes := if axes.length = 0 then axes ++ [GoMap.empty] else axes
  axes.foldlM (b.buildAxis P cfg y) st

/-- `Build`. -/
def build : Except String (List BuildItem) := do
  let st ← (P.sortByName b.yamls).foldlM (b.buildYaml P cfg) ⟨[], 1, 0⟩
  pure (filterItemsWithMissingDependencies st.items)

end ProcBuilder

theorem sampleBuilder_build_ok :
    ∃ items, sampleBuilder.build (samplePackages sampleAxes) samplePipelineConfig = .ok items := by
  have hsort : (samplePackages sampleAxes).sortByName sampleBuilder.yamls = sampleBuilder.yamls :=
    List.mergeSort_singleton _
  simp only [ProcBuilder.build, hsort]
  exact ⟨_, rfl⟩

end Woodpecker
