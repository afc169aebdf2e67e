/-
# The Gitea remote

`remote/gitea` (`oauthclient`), the methods with logic of their own.
`Repos` reads the repository list page by page until the SDK answers with
an empty page; `Dir` lists a commit's tree and fetches every file directly
under a folder; `Netrc` chooses between the machine account and the user's
token; `Refresh` replaces the user's tokens.  The Gitea SDK calls
(`ListMyRepos`, `GetTrees`, `GetFile`), the client `newClientToken` builds,
`oauth2`'s token source, `url.Parse`, `net.SplitHostPort`, `path.Clean`,
`filepath.Match` and `toRepo` are parameters.

`Repos`' loop has no bound, so it is modelled with fuel.  It stops at the
first page that is empty or fails, and returns the repositories of the pages
before it, with the error when it failed (`OauthClient.repos_eq_some_iff`);
it returns at all exactly when such a page exists
(`OauthClient.repos_terminates_iff`).  `Dir` calls `newClientToken` once for
itself and once more in every `File` it calls, and each call may give another
client or fail: `newClient n` is the result of the call for the `n`-th
matching file, `newClient 0` that of `Dir`'s own.  `Dir`'s loop is a filter
followed by a `mapM` over the matching entries numbered from `1`
(`dirLoop_eq_mapM`): it returns the matching files in tree order, each read
through its own client (`dir_eq_ok_iff`), or fails naming the first one it
could not fetch, with the error of its client or of its `GetFile`
(`dir_eq_error_iff`).

`Dir`'s documents are what `Build` plans.  `Dir` keeps the order in which the
forge lists the tree, and `Build` sorts by name first, so when the tree lists
each path once and the clients of the `File` calls read the same contents,
the plan does not depend on that order (`build_dir_tree_perm`).
-/

import Woodpecker.Plan
import Mathlib.Data.List.Forall2
import Mathlib.Data.List.Perm.Basic

namespace Woodpecker
namespace Gitea

/-- `Opts`, the settings `NewOauth` reads. -/
structure Opts where
  url : String
  context : String
  client : String
  secret : String
  username : String
  password : String
  privateMode : Bool
  skipVerify : Bool

/-- `oauthclient`. -/
structure OauthClient where
  url : String
  context : String
  machine : String
  client : String
  secret : String
  username : String
  password : String
  privateMode : Bool
  skipVerify : Bool

/-- `model.User`: the account fields the remote reads and writes. -/
structure User where
  login : String
  token : String
  secret : String
  expiry : Int
  deriving DecidableEq, Repr

/-- A `gitea.TreeEntry`: a path of the tree and its type (`"blob"` for a file). -/
structure TreeEntry where
  path : String
  type : String
  deriving DecidableEq, Repr

/-- The SDK calls of a `gitea.Client` with its token set: `ListMyRepos` for
page `n` (of 50 repositories), `GetTrees(owner, name, ref, recursive)` and
`GetFile(owner, name, ref, path)`.  `R` is the SDK's repository type. -/
structure Client (R : Type) where
  listMyRepos : Nat → Except String (List R)
  getTrees : String → String → String → Bool → Except String (List TreeEntry)
  getFile : String → String → String → String → Except String String

/-- `NewOauth`: the machine is the host of the URL, without its port when it
has one.  `urlHost` is `url.Parse(s).Host`, `splitHostPort` the host part of
`net.SplitHostPort`. -/
def newOauth (urlHost : String → Except String String) (splitHostPort : String → Option String)
    (opts : Opts) : Except String OauthClient := do
  let host ← urlHost opts.url
  let host := (splitHostPort host).getD host
  pure { url := opts.url, context := opts.context, machine := host, client := opts.client,
         secret := opts.secret, username := opts.username, password := opts.password,
         privateMode := opts.privateMode, skipVerify := opts.skipVerify }

/-- `Netrc`: the machine account when a password is configured, else the
user's login and token; the machine is always the configured host. -/
def OauthClient.netrc (c : OauthClient) (u : User) : Netrc :=
  if c.password ≠ "" then { login := c.username, password := c.password, machine := c.machine }
  else { login := u.login, password := u.token, machine := c.machine }

/-- The token `oauth2`'s token source returns; `expiry` is `Expiry.UTC().Unix()`. -/
structure Token where
  accessToken : String
  refreshToken : String
  expiry : Int

/-- `Refresh`: whether the tokens were refreshed, the error, and the user
after the call.  `tokenSource` is the source built from the refresh token. -/
def refresh (tokenSource : String → Except String Token) (user : User) :
    (Bool × Option String) × User :=
  match tokenSource user.secret with
  | .error err => ((false, some err), user)
  | .ok token =>
    if token.accessToken.length = 0 then ((false, none), user)
    else ((true, none), { user with token := token.accessToken, secret := token.refreshToken,
                                    expiry := token.expiry })

/-- A refresh that reports no refresh leaves the user as it was. -/
theorem refresh_user_of_not_refreshed {tokenSource : String → Except String Token} {user : User}
    (h : (refresh tokenSource user).1.1 = false) : (refresh tokenSource user).2 = user := by
  revert h
  unfold refresh
  cases tokenSource user.secret with
  | error err => exact fun _ => rfl
  | ok token =>
    dsimp only
    split_ifs
    · exact fun _ => rfl
    · nofun

/-! ### `Repos` -/

section Repos

variable {R : Type} (listMyRepos : Nat → Except String (List R)) (toRepo : R → Repo)

/-- The `for {}` loop of `Repos` from page `page`, with the repositories
`repos` read so far: a failing page ends it with what was read and the
error, an empty page with what was read.  `none` when `fuel` runs out. -/
def reposLoop : Nat → Nat → List Repo → Option (List Repo × Option String)
  | 0, _, _ => none
  | fuel + 1, page, repos =>
    match listMyRepos page with
    | .error err => some (repos, some err)
    | .ok all =>
      let repos := repos ++ all.map toRepo
      if all.length = 0 then some (repos, none) else reposLoop fuel (page + 1) repos

/-- The pages from `page` on, none of them empty. -/
def FullPages (page : Nat) (pages : List (List R)) : Prop :=
  ∀ i xs, pages[i]? = some xs → listMyRepos (page + i) = .ok xs ∧ xs ≠ []

theorem fullPages_cons {page : Nat} {xs : List R} {pages : List (List R)} :
    FullPages listMyRepos page (xs :: pages) ↔
      (listMyRepos page = .ok xs ∧ xs ≠ []) ∧ FullPages listMyRepos (page + 1) pages := by
  constructor
  · intro h
    exact ⟨h 0 xs List.getElem?_cons_zero, fun i ys hi => by
      simpa [Nat.add_assoc, Nat.add_comm 1] using h (i + 1) ys (by simpa using hi)⟩
  · rintro ⟨h₀, h⟩ (_ | i) ys hi
    · obtain rfl := Option.some.inj (List.getElem?_cons_zero.symm.trans hi)
      exact h₀
    · simpa [Nat.add_assoc, Nat.add_comm 1] using h i ys (by simpa using hi)

/-- **What the loop of `Repos` returns.**  It returns `r` exactly when the
pages from `page` on are some non-empty pages, fewer than the fuel, followed
by an empty page or a failing one; `r` is then the repositories read before,
followed by those of the non-empty pages in order, together with the error
of the failing page, if it failed. -/
theorem reposLoop_eq_some_iff (fuel page : Nat) (repos : List Repo) (r : List Repo × Option String) :
    reposLoop listMyRepos toRepo fuel page repos = some r ↔
      ∃ pages, pages.length < fuel ∧ FullPages listMyRepos page pages ∧
        ((listMyRepos (page + pages.length) = .ok [] ∧
            r = (repos ++ pages.flatMap (·.map toRepo), none)) ∨
          ∃ err, listMyRepos (page + pages.length) = .error err ∧
            r = (repos ++ pages.flatMap (·.map toRepo), some err)) := by
  induction fuel generalizing page repos with
  | zero => simp [reposLoop]
  | succ fuel ih =>
    constructor
    · intro h
      rw [reposLoop] at h
      split at h
      · -- a failing page
        exact ⟨[], by simp, by simp [FullPages], .inr ⟨_, ‹_›, by simpa using h.symm⟩⟩
      · rename_i all hall
        split_ifs at h with hlen
        · -- an empty page
          obtain rfl := List.length_eq_zero.1 hlen
          exact ⟨[], by simp, by simp [FullPages], .inl ⟨hall, by simpa using h.symm⟩⟩
        · -- a full page, then the rest
          obtain ⟨pages, hfuel, hfull, hend⟩ := (ih (page + 1) _).1 h
          refine ⟨all :: pages, by simpa using hfuel,
            (fullPages_cons listMyRepos).2 ⟨⟨hall, List.length_eq_zero.not.1 hlen⟩, hfull⟩, ?_⟩
          simpa [Nat.add_assoc, Nat.add_comm 1] using hend
    · rintro ⟨pages, hfuel, hfull, hend⟩
      cases pages with
      | nil =>
        simp only [List.length_nil, Nat.add_zero, List.flatMap_nil, List.append_nil] at hend
        rcases hend with ⟨hempty, rfl⟩ | ⟨err, herr, rfl⟩
        · simp [reposLoop, hempty]
        · rw [reposLoop, herr]
      | cons xs pages =>
        obtain ⟨⟨hxs, hne⟩, hfull⟩ := (fullPages_cons listMyRepos).1 hfull
        rw [reposLoop, hxs]
        simp only [if_neg (List.length_eq_zero.not.2 hne)]
        refine (ih (page + 1) _).2 ⟨pages, by simpa using hfuel, hfull, ?_⟩
        simpa [Nat.add_assoc, Nat.add_comm 1] using hend

/-- A page on which the loop stops: an empty page or a failing one. -/
def StopPage (page : Nat) : Prop :=
  listMyRepos page = .ok [] ∨ ∃ err, listMyRepos page = .error err

theorem stopPage_or_full (page : Nat) :
    StopPage listMyRepos page ∨ ∃ xs, listMyRepos page = .ok xs ∧ xs ≠ [] := by
  unfold StopPage
  cases listMyRepos page with
  | error err => exact .inl (.inr ⟨err, rfl⟩)
  | ok xs => cases xs <;> simp

theorem reposLoop_one_of_stopPage {page : Nat} (h : StopPage listMyRepos page) (repos : List Repo) :
    ∃ r, reposLoop listMyRepos toRepo 1 page repos = some r := by
  rcases h with hempty | ⟨err, herr⟩
  · exact ⟨(repos, none), by simp [reposLoop, hempty]⟩
  · exact ⟨(repos, some err), by rw [reposLoop, herr]⟩

/-- The loop of `Repos` returns for some fuel exactly when some page from
`page` on is empty or fails. -/
theorem reposLoop_terminates_iff (page : Nat) (repos : List Repo) :
    (∃ fuel r, reposLoop listMyRepos toRepo fuel page repos = some r) ↔
      ∃ n, StopPage listMyRepos (page + n) := by
  constructor
  · rintro ⟨fuel, r, h⟩
    obtain ⟨pages, -, -, hend⟩ := (reposLoop_eq_some_iff listMyRepos toRepo fuel page repos r).1 h
    exact ⟨pages.length, hend.imp And.left fun ⟨err, herr, _⟩ => ⟨err, herr⟩⟩
  · rintro ⟨n, hn⟩
    induction n generalizing page repos with
    | zero => exact ⟨1, reposLoop_one_of_stopPage listMyRepos toRepo hn repos⟩
    | succ n ih =>
      rcases stopPage_or_full listMyRepos page with hstop | ⟨xs, hxs, hne⟩
      · exact ⟨1, reposLoop_one_of_stopPage listMyRepos toRepo hstop repos⟩
      · obtain ⟨fuel, r, h⟩ := ih (page + 1) (repos ++ xs.map toRepo) (by rwa [Nat.add_right_comm])
        refine ⟨fuel + 1, r, ?_⟩
        rw [reposLoop, hxs]
        simpa [List.length_eq_zero, hne] using h

end Repos

/-- `Repos`: the client for the user's token, then the loop from page 1, each
repository converted with the client's private mode. -/
def OauthClient.repos {R : Type} (c : OauthClient) (newClientToken : String → Except String (Client R))
    (toRepo : R → Bool → Repo) (u : User) (fuel : Nat) : Option (List Repo × Option String) :=
  match newClientToken u.token with
  | .error err => some ([], some err)
  | .ok client => reposLoop client.listMyRepos (toRepo · c.privateMode) fuel 1 []

section OauthRepos

variable {R : Type} (c : OauthClient) (newClientToken : String → Except String (Client R))
  (toRepo : R → Bool → Repo) (u : User)

/-- **What `Repos` returns.**  Without a client, nothing and the client's
error.  With one, `r` exactly when the pages from page 1 on are some
non-empty pages, fewer than the fuel, followed by an empty or a failing page;
`r` is then the repositories of the non-empty pages in order, each converted
with the private mode, together with the error of the failing page, if it
failed: the repositories read so far are returned along with the error. -/
theorem OauthClient.repos_eq_some_iff (fuel : Nat) (r : List Repo × Option String) :
    c.repos newClientToken toRepo u fuel = some r ↔
      (∃ err, newClientToken u.token = .error err ∧ r = ([], some err)) ∨
      ∃ client, newClientToken u.token = .ok client ∧
        ∃ pages, pages.length < fuel ∧ FullPages client.listMyRepos 1 pages ∧
          ((client.listMyRepos (1 + pages.length) = .ok [] ∧
              r = (pages.flatMap (·.map (toRepo · c.privateMode)), none)) ∨
            ∃ err, client.listMyRepos (1 + pages.length) = .error err ∧
              r = (pages.flatMap (·.map (toRepo · c.privateMode)), some err)) := by
  unfold OauthClient.repos
  cases newClientToken u.token with
  | error err => simp [eq_comm]
  | ok client => simp [reposLoop_eq_some_iff]

/-- **When `Repos` returns.**  `Repos` ends exactly when, should it get a
client, some page from page 1 on is empty or fails.  Its loop relies on the
SDK answering a page past the last with an empty list; against one that
always answers with repositories it never returns. -/
theorem OauthClient.repos_terminates_iff :
    (∃ fuel r, c.repos newClientToken toRepo u fuel = some r) ↔
      ∀ client, newClientToken u.token = .ok client → ∃ n, StopPage client.listMyRepos (1 + n) := by
  unfold OauthClient.repos
  cases newClientToken u.token with
  | error err => simp
  | ok client =>
    simp only [Except.ok.injEq, forall_eq']
    exact reposLoop_terminates_iff _ _ 1 []

end OauthRepos

/-! ### `Dir` -/

section MapM

variable {ε α β : Type} (f : α → Except ε β)

/-- `mapM` in `Except` succeeds with `ys` exactly when each element gives its
counterpart. -/
theorem mapM_eq_ok_iff {l : List α} {ys : List β} :
    l.mapM f = .ok ys ↔ List.Forall₂ (fun x y => f x = .ok y) l ys := by
  induction l generalizing ys with
  | nil =>
    rw [List.mapM_nil, List.forall₂_nil_left_iff]
    exact ⟨fun h => (Except.ok.inj h).symm, fun h => h ▸ rfl⟩
  | cons a l ih =>
    rw [List.mapM_cons, Except.bind_eq_ok]
    constructor
    · rintro ⟨b, ha, h⟩
      obtain ⟨bs, hl, h⟩ := Except.bind_eq_ok.1 h
      cases Except.ok.inj h
      exact .cons ha (ih.1 hl)
    · intro h
      cases h with
      | cons ha hl => exact ⟨_, ha, Except.bind_eq_ok.2 ⟨_, ih.2 hl, rfl⟩⟩

/-- `mapM` in `Except` fails with `e` exactly when some element does, every
element before it succeeding. -/
theorem mapM_eq_error_iff {l : List α} {e : ε} :
    l.mapM f = .error e ↔ ∃ pre x post, l = pre ++ x :: post ∧
      (∀ y ∈ pre, ∃ z, f y = .ok z) ∧ f x = .error e := by
  induction l with
  | nil => rw [List.mapM_nil]; simp [pure, Except.pure]
  | cons a l ih =>
    rw [List.mapM_cons]
    constructor
    · intro h
      rcases Except.bind_eq_error.1 h with ha | ⟨b, ha, h⟩
      · exact ⟨[], a, l, rfl, by simp, ha⟩
      · rcases Except.bind_eq_error.1 h with hl | ⟨bs, -, h⟩
        · obtain ⟨pre, x, post, rfl, hpre, hx⟩ := ih.1 hl
          exact ⟨a :: pre, x, post, rfl, List.forall_mem_cons.2 ⟨⟨b, ha⟩, hpre⟩, hx⟩
        · cases h
    · rintro ⟨_ | ⟨b, pre⟩, x, post, hl, hpre, hx⟩
      · obtain ⟨rfl, rfl⟩ := List.cons.inj hl
        rw [hx]
        rfl
      · obtain ⟨rfl, rfl⟩ := List.cons.inj hl
        obtain ⟨⟨z, hz⟩, hpre⟩ := List.forall_mem_cons.1 hpre
        rw [hz, Except.ok_bind, ih.2 ⟨pre, x, post, rfl, hpre, hx⟩]
        rfl

end MapM

/-- One fetch of `Dir`'s loop: the file at `path`, or the error naming it. -/
def dirFetch (fetch : String → Except String String) (path : String) : Except String FileMeta :=
  match fetch path with
  | .error err => .error ("multi-pipeline cannot get " ++ path ++ ": " ++ err)
  | .ok data => .ok ⟨path, data⟩

theorem dirFetch_eq_ok_iff {fetch : String → Except String String} {path : String}
    {config : FileMeta} : dirFetch fetch path = .ok config ↔
      config.name = path ∧ fetch path = .ok config.data := by
  unfold dirFetch
  cases fetch path <;> cases config <;> simp [eq_comm]

theorem exists_dirFetch_eq_ok_iff {fetch : String → Except String String} {path : String} :
    (∃ config, dirFetch fetch path = .ok config) ↔ ∃ data, fetch path = .ok data := by
  simp only [dirFetch_eq_ok_iff]
  exact ⟨fun ⟨config, _, h⟩ => ⟨config.data, h⟩, fun ⟨data, h⟩ => ⟨⟨path, data⟩, rfl, h⟩⟩

theorem dirFetch_eq_error_iff {fetch : String → Except String String} {path msg : String} :
    dirFetch fetch path = .error msg ↔
      ∃ err, fetch path = .error err ∧ msg = "multi-pipeline cannot get " ++ path ++ ": " ++ err := by
  unfold dirFetch
  cases fetch path <;> simp [eq_comm]

/-- The loop of `Dir` over the tree: every blob whose path matches is fetched
and appended; the first failing fetch ends `Dir`.  `fetch n` is `File` with
the client of the `n`-th call of `newClientToken`; the call for a file is the
one after those for the files fetched before it. -/
def dirLoop (isMatch : String → Bool) (fetch : Nat → String → Except String String) :
    List TreeEntry → List FileMeta → Except String (List FileMeta)
  | [], configs => .ok configs
  | e :: entries, configs =>
    if isMatch e.path && e.type == "blob" then
      match dirFetch (fetch (configs.length + 1)) e.path with
      | .error err => .error err
      | .ok config => dirLoop isMatch fetch entries (configs ++ [config])
    else dirLoop isMatch fetch entries configs

/-- The entries `Dir` fetches: the blobs whose path matches. -/
def dirEntries (isMatch : String → Bool) (tree : List TreeEntry) : List TreeEntry :=
  tree.filter fun e => isMatch e.path && e.type == "blob"

/-- `Dir`'s loop fetches the matching blobs in tree order, the `n`-th with
the `n`-th client after those already used, stopping at the first failure. -/
theorem dirLoop_eq_mapM (isMatch : String → Bool) (fetch : Nat → String → Except String String)
    (entries : List TreeEntry) (configs : List FileMeta) :
    dirLoop isMatch fetch entries configs =
      (configs ++ ·) <$> ((dirEntries isMatch entries).enumFrom (configs.length + 1)).mapM
        fun ne => dirFetch (fetch ne.1) ne.2.path := by
  induction entries generalizing configs with
  | nil =>
    rw [dirEntries, List.filter_nil, List.enumFrom_nil, List.mapM_nil]
    show Except.ok configs = Except.ok (configs ++ [])
    rw [List.append_nil]
  | cons e entries ih =>
    simp only [dirLoop, dirEntries, List.filter_cons] at ih ⊢
    split_ifs
    · rw [List.enumFrom_cons, List.mapM_cons]
      cases dirFetch (fetch (configs.length + 1)) e.path with
      | error err => rfl
      | ok config =>
        simp only [Except.ok_bind]
        rw [ih, List.length_append, List.length_singleton]
        generalize ((entries.filter fun e => isMatch e.path && e.type == "blob").enumFrom
          (configs.length + 1 + 1)).mapM (fun ne => dirFetch (fetch ne.1) ne.2.path) = fetched
        cases fetched with
        | error err => rfl
        | ok fetched => simp [Functor.map, Except.map, pure, Except.pure]
    · exact ih configs

/-- When every call from the first on fetches alike, the numbering of the
calls does not matter. -/
theorem mapM_enumFrom_succ {α β : Type} {h : Nat → α → Except String β} {g : α → Except String β}
    (hg : ∀ n a, h (n + 1) a = g a) (l : List α) (k : Nat) :
    (l.enumFrom (k + 1)).mapM (fun ne => h ne.1 ne.2) = l.mapM g := by
  induction l generalizing k with
  | nil => rfl
  | cons a l ih => rw [List.enumFrom_cons, List.mapM_cons, List.mapM_cons, hg, ih]

/-- `File`: the client for the user's token, then `GetFile`. -/
def file {R : Type} (newClient : Except String (Client R)) (owner name ref f : String) :
    Except String String := do
  let client ← newClient
  client.getFile owner name ref f

section File

variable {R : Type} {newClient : Except String (Client R)} {owner name ref f : String}

theorem file_eq_ok_iff {data : String} :
    file newClient owner name ref f = .ok data ↔
      ∃ client, newClient = .ok client ∧ client.getFile owner name ref f = .ok data :=
  Except.bind_eq_ok

theorem file_eq_error_iff {err : String} :
    file newClient owner name ref f = .error err ↔
      newClient = .error err ∨ ∃ client, newClient = .ok client ∧
        client.getFile owner name ref f = .error err :=
  Except.bind_eq_error

end File

/-- `Dir`: the files directly under folder `f` of the tree at `ref`, the
pattern being `path.Clean(f) + "/*"`.  `newClient n` is what the `n`-th call
of `newClientToken(u.Token)` made by `Dir` gives: call `0` is `Dir`'s own,
call `n + 1` that of the `File` fetching the `(n + 1)`-th file; each call
builds a client of its own and may fail on its own. -/
def dir {R : Type} (pathClean : String → String) (filepathMatch : String → String → Bool)
    (newClient : Nat → Except String (Client R)) (owner name ref f : String) :
    Except String (List FileMeta) := do
  let client ← newClient 0
  let tree ← client.getTrees owner name ref true
  let f := pathClean f ++ "/" ++ "*"
  dirLoop (filepathMatch f) (fun n => file (newClient n) owner name ref) tree []

section Dir

variable {R : Type} (pathClean : String → String) (filepathMatch : String → String → Bool)
  (newClient : Nat → Except String (Client R)) (owner name ref f : String)

/-- `Dir` as a `mapM`: the client, the tree, then the matching blobs fetched
in order, the `n`-th (from `1`) with the client of call `n`. -/
theorem dir_eq_mapM :
    dir pathClean filepathMatch newClient owner name ref f =
      newClient 0 >>= fun client => client.getTrees owner name ref true >>= fun tree =>
        ((dirEntries (filepathMatch (pathClean f ++ "/" ++ "*")) tree).enumFrom 1).mapM
          fun ne => dirFetch (file (newClient ne.1) owner name ref) ne.2.path := by
  simp only [dir, dirLoop_eq_mapM, List.length_nil, Nat.zero_add, List.nil_append, id_map']

/-- **What `Dir` returns.**  `Dir` succeeds exactly when its client, the tree
and every matching blob can be read, the `n`-th matching blob (from `1`)
with the client of the `n`-th call of `newClientToken` after `Dir`'s own; its
documents are then the matching blobs in tree order, each named by its path
and holding what `GetFile` gave for it. -/
theorem dir_eq_ok_iff (configs : List FileMeta) :
    dir pathClean filepathMatch newClient owner name ref f = .ok configs ↔
      ∃ client, newClient 0 = .ok client ∧ ∃ tree, client.getTrees owner name ref true = .ok tree ∧
        List.Forall₂ (fun (ne : Nat × TreeEntry) config => config.name = ne.2.path ∧
            ∃ client', newClient ne.1 = .ok client' ∧
              client'.getFile owner name ref ne.2.path = .ok config.data)
          ((dirEntries (filepathMatch (pathClean f ++ "/" ++ "*")) tree).enumFrom 1) configs := by
  simp only [dir_eq_mapM, Except.bind_eq_ok, mapM_eq_ok_iff, dirFetch_eq_ok_iff, file_eq_ok_iff]

/-- **How `Dir` fails.**  An error of `Dir` is its client's, or the tree
listing's, or it names the first matching blob, in tree order, that cannot be
fetched: the `n`-th (from `1`), with the error of the `n`-th client or, when
that client was built, of `GetFile`. -/
theorem dir_eq_error_iff (msg : String) :
    dir pathClean filepathMatch newClient owner name ref f = .error msg ↔
      newClient 0 = .error msg ∨ ∃ client, newClient 0 = .ok client ∧
        (client.getTrees owner name ref true = .error msg ∨
          ∃ tree, client.getTrees owner name ref true = .ok tree ∧
            ∃ pre n e post,
              (dirEntries (filepathMatch (pathClean f ++ "/" ++ "*")) tree).enumFrom 1 =
                pre ++ (n, e) :: post ∧
              (∀ ne ∈ pre, ∃ data client', newClient ne.1 = .ok client' ∧
                client'.getFile owner name ref ne.2.path = .ok data) ∧
              ∃ err, (newClient n = .error err ∨ ∃ client', newClient n = .ok client' ∧
                  client'.getFile owner name ref e.path = .error err) ∧
                msg = "multi-pipeline cannot get " ++ e.path ++ ": " ++ err) := by
  simp only [dir_eq_mapM, Except.bind_eq_error, mapM_eq_error_iff, Prod.exists,
    exists_dirFetch_eq_ok_iff, dirFetch_eq_error_iff, file_eq_ok_iff, file_eq_error_iff]

end Dir

/-! ### What `Build` makes of `Dir`'s documents -/

section DirBuild

variable {R : Type} (pathClean : String → String) (filepathMatch : String → String → Bool)
  (owner name ref f : String)

/-- `Dir` when every `File` call gets a client, each reading files with `getFile`. -/
theorem dir_eq_of_files {newClient : Nat → Except String (Client R)} {client : Client R}
    (getFile : String → String → String → String → Except String String)
    (hc : newClient 0 = .ok client)
    (hfiles : ∀ n, ∃ c, newClient (n + 1) = .ok c ∧ c.getFile = getFile) :
    dir pathClean filepathMatch newClient owner name ref f =
      client.getTrees owner name ref true >>= fun tree =>
        (dirEntries (filepathMatch (pathClean f ++ "/" ++ "*")) tree).mapM
          (dirFetch (getFile owner name ref) ·.path) := by
  have hfetch : ∀ n (e : TreeEntry), dirFetch (file (newClient (n + 1)) owner name ref) e.path =
      dirFetch (getFile owner name ref) e.path := by
    intro n e
    obtain ⟨c, hcn, rfl⟩ := hfiles n
    rw [hcn]
    rfl
  rw [dir_eq_mapM, hc, Except.ok_bind]
  congr 1
  funext tree
  exact @mapM_enumFrom_succ TreeEntry FileMeta
    (fun n e => dirFetch (file (newClient n) owner name ref) e.path) _ hfetch _ 0

theorem map_name_eq_of_dirFetch {fetch : String → Except String String}
    {entries : List TreeEntry} {configs : List FileMeta}
    (h : List.Forall₂ (fun e config => dirFetch fetch e.path = .ok config) entries configs) :
    configs.map (·.name) = entries.map (·.path) := by
  induction h with
  | nil => rfl
  | cons hc _ ih => rw [List.map_cons, List.map_cons, (dirFetch_eq_ok_iff.1 hc).1, ih]

/-- Documents fetched from a tree that lists each path once have distinct names. -/
theorem names_nodup_of_mapM {fetch : String → Except String String} {isMatch : String → Bool}
    {tree : List TreeEntry} {configs : List FileMeta}
    (h : (dirEntries isMatch tree).mapM (dirFetch fetch ·.path) = .ok configs)
    (hn : (tree.map (·.path)).Nodup) : (configs.map (·.name)).Nodup := by
  rw [map_name_eq_of_dirFetch ((mapM_eq_ok_iff _).1 h)]
  exact ((List.filter_sublist tree).map _).nodup hn

/-- **The plan does not depend on the order in which the forge lists the
tree.**  Take two runs of `Dir` over listings of one tree in different
orders, the tree listing each path once, every `File` call of either run
getting a client that reads files with one `getFile`.  When the first run
succeeds, so does the second, and `Build` plans the documents of either
alike: `Dir` keeps the listing's order, and `Build` sorts by name first. -/
theorem build_dir_tree_perm (P : Packages) (cfg : PipelineConfig) (b : ProcBuilder)
    {newClient newClient' : Nat → Except String (Client R)} {client client' : Client R}
    {tree tree' : List TreeEntry} {configs : List FileMeta}
    (getFile : String → String → String → String → Except String String)
    (hc : newClient 0 = .ok client) (hc' : newClient' 0 = .ok client')
    (hfiles : ∀ n, ∃ c, newClient (n + 1) = .ok c ∧ c.getFile = getFile)
    (hfiles' : ∀ n, ∃ c, newClient' (n + 1) = .ok c ∧ c.getFile = getFile)
    (ht : client.getTrees owner name ref true = .ok tree)
    (ht' : client'.getTrees owner name ref true = .ok tree') (hp : tree'.Perm tree)
    (hn : (tree.map (·.path)).Nodup)
    (hdir : dir pathClean filepathMatch newClient owner name ref f = .ok configs) :
    ∃ configs', dir pathClean filepathMatch newClient' owner name ref f = .ok configs' ∧
      ({ b with yamls := configs' } : ProcBuilder).build P cfg =
        ({ b with yamls := configs } : ProcBuilder).build P cfg := by
  rw [dir_eq_of_files pathClean filepathMatch owner name ref f getFile hc hfiles, ht,
    Except.ok_bind] at hdir
  obtain ⟨configs', hfetch, hperm⟩ :=
    List.perm_comp_forall₂ (hp.filter _) ((mapM_eq_ok_iff _).1 hdir)
  refine ⟨configs', ?_, ?_⟩
  · rw [dir_eq_of_files pathClean filepathMatch owner name ref f getFile hc' hfiles', ht',
      Except.ok_bind]
    exact (mapM_eq_ok_iff _).2 hfetch
  · simp only [ProcBuilder.build, P.sortByName_eq_of_perm hperm (names_nodup_of_mapM hdir hn)]
    rfl

end DirBuild

/-- Two configuration files of `ci/`, listed in either order, every call of
`newClientToken` giving a client that reads `x`. -/
theorem build_dir_tree_swap :
    let files : Client Unit := ⟨fun _ => .ok [], fun _ _ _ _ => .ok [], fun _ _ _ _ => .ok "x"⟩
    let newClient : Nat → Except String (Client Unit) := fun n => .ok (if n = 0 then
      { files with getTrees := fun _ _ _ _ => .ok [⟨"ci/a.yml", "blob"⟩, ⟨"ci/b.yml", "blob"⟩] }
      else files)
    let newClient' : Nat → Except String (Client Unit) := fun n => .ok (if n = 0 then
      { files with getTrees := fun _ _ _ _ => .ok [⟨"ci/b.yml", "blob"⟩, ⟨"ci/a.yml", "blob"⟩] }
      else files)
    dir id (fun _ _ => true) newClient "o" "n" "r" "ci" =
        .ok [⟨"ci/a.yml", "x"⟩, ⟨"ci/b.yml", "x"⟩] ∧
      ∃ configs', dir id (fun _ _ => true) newClient' "o" "n" "r" "ci" = .ok configs' ∧
        ({ sampleBuilder with yamls := configs' } : ProcBuilder).build (samplePackages sampleAxes)
            samplePipelineConfig =
          ({ sampleBuilder with yamls := [⟨"ci/a.yml", "x"⟩, ⟨"ci/b.yml", "x"⟩] } : ProcBuilder).build
            (samplePackages sampleAxes) samplePipelineConfig := by
  intro files newClient newClient'
  have hfiles : ∀ n, ∃ c, newClient (n + 1) = .ok c ∧ c.getFile = files.getFile :=
    fun _ => ⟨files, rfl, rfl⟩
  have hfiles' : ∀ n, ∃ c, newClient' (n + 1) = .ok c ∧ c.getFile = files.getFile :=
    fun _ => ⟨files, rfl, rfl⟩
  have hdir : dir id (fun _ _ => true) newClient "o" "n" "r" "ci" =
      .ok [⟨"ci/a.yml", "x"⟩, ⟨"ci/b.yml", "x"⟩] := rfl
  exact ⟨hdir, build_dir_tree_perm id (fun _ _ => true) "o" "n" "r" "ci" _ _ _ files.getFile rfl rfl
    hfiles hfiles' rfl rfl (List.Perm.swap _ _ []) (by decide) hdir⟩

end Gitea
end Woodpecker
