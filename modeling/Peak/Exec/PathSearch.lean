import Peak.Exec.Entry

/-!
# Searches along `PATH`

`src/exec_interceptor.c` searches `PATH` twice: without allocation before its wrappers are
published, and in place of a missing `execvpe` afterwards. Every `execve` fails here, with an error
that its path determines; a search gives its attempts and the `errno` it leaves.

The first search takes the result of the shell as final, where `execvp` goes on along
`PATH`. The second forgets a refused permission when the last candidate is too long.
-/

namespace Peak.Exec

def pathMax : ℕ := 4096

def maxVarargs : ℕ := 4096

def defaultPath : Text := "/bin:/usr/bin".toList

def binSh : Text := "/bin/sh".toList

inductive Errno where
  | enoent
  | enotdir
  | estale
  | enodev
  | etimedout
  | eacces
  | enoexec
  | enametoolong
  | e2big
  | other (code : ℕ)
deriving DecidableEq

/-- Whether the next element of `PATH` is tried after the error. -/
def Errno.continues : Errno → Bool
  | .enoent | .enotdir | .estale | .enodev | .etimedout | .eacces => true
  | _ => false

structure Attempt where
  path : Text
  argv : List Text
deriving DecidableEq

abbrev Search := List Attempt × Errno

def Search.after (attempts : List Attempt) (search : Search) : Search :=
  (attempts ++ search.1, search.2)

variable (errnoOf : Text → Errno) (file : Text) (argv : List Text)

def execve (path : Text) : Search :=
  ([⟨path, argv⟩], errnoOf path)

def candidate (directory : Text) : Text :=
  if directory = [] then file else directory ++ '/' :: file

def prepublicationPath (environ : List Text) : Text :=
  (getenv environ "PATH".toList).getD defaultPath

def prepublicationShell (path : Text) : Search :=
  if maxVarargs ≤ argv.length then ([], .e2big)
  else execve errnoOf (binSh :: path :: argv.tail) binSh

def prepublicationLoop : List Text → Errno → Bool → Search
  | [], saved, sawEacces => ([], if sawEacces then .eacces else saved)
  | directory :: rest, _, sawEacces =>
    let path := candidate file directory
    if path.length + 1 ≤ pathMax then
      let error := errnoOf path
      if error = .enoexec then (prepublicationShell errnoOf argv path).after [⟨path, argv⟩]
      else if error.continues then
        (prepublicationLoop rest error (sawEacces || error = .eacces)).after [⟨path, argv⟩]
      else execve errnoOf argv path
    else prepublicationLoop rest .enametoolong sawEacces

def prepublicationPathSearch (environ : List Text) : Search :=
  if file = [] then ([], .enoent)
  else if pathMax ≤ file.length then ([], .enametoolong)
  else if '/' ∈ file then
    if errnoOf file = .enoexec then (prepublicationShell errnoOf argv file).after [⟨file, argv⟩]
    else execve errnoOf argv file
  else prepublicationLoop errnoOf file argv ((prepublicationPath environ).splitOn ':') .enoent false

def buildShellArgv (path : Text) : Except Errno (List Text) :=
  if maxVarargs ≤ argv.length then throw .e2big else pure (binSh :: path :: argv.tail)

def enoexecShellFallback (path : Text) : Search :=
  match buildShellArgv argv path with
  | .error error => ([], error)
  | .ok shellArgv => execve errnoOf shellArgv binSh

/-- One path of `peak_execvpe_fallback`, with the shell where the format is unknown. -/
def tryWithShell (path : Text) : Search :=
  if errnoOf path = .enoexec then (enoexecShellFallback errnoOf argv path).after [⟨path, argv⟩]
  else execve errnoOf argv path

def fallbackLoop : List Text → Errno → Bool → Search
  | [], saved, _ => ([], saved)
  | directory :: rest, _, sawEacces =>
    let path := candidate file directory
    if pathMax < path.length + 1 then fallbackLoop rest .enametoolong sawEacces
    else
      let tried := tryWithShell errnoOf argv path
      let sawEacces := sawEacces || tried.2 = .eacces
      if tried.2.continues then
        if rest = [] then (tried.1, if sawEacces then .eacces else tried.2)
        else (fallbackLoop rest tried.2 sawEacces).after tried.1
      else tried

def execvpeFallback (environ : List Text) : Search :=
  if file = [] then ([], .enoent)
  else if '/' ∈ file then tryWithShell errnoOf argv file
  else fallbackLoop errnoOf file argv
    (((getenv environ "PATH".toList).getD defaultPath).splitOn ':') .enoent false

/-- A path, followed by the shell with the path as its script where the format is unknown. -/
def attempt (path : Text) : Search :=
  if errnoOf path = .enoexec then
    ([⟨path, argv⟩, ⟨binSh, binSh :: path :: argv.tail⟩], errnoOf binSh)
  else ([⟨path, argv⟩], errnoOf path)

/-- The search along the elements, from the last error and whether a permission was refused. -/
def searchElements : List Text → Errno → Bool → Search
  | [], last, refused => ([], if refused then .eacces else last)
  | directory :: rest, _, refused =>
    if pathMax ≤ (candidate file directory).length then searchElements rest .enametoolong refused
    else
      let tried := attempt errnoOf argv (candidate file directory)
      if tried.2.continues then
        (searchElements rest tried.2 (refused || tried.2 = .eacces)).after tried.1
      else tried

def execvp (environ : List Text) : Search :=
  if file = [] then ([], .enoent)
  else if '/' ∈ file then attempt errnoOf argv file
  else searchElements errnoOf file argv ((prepublicationPath environ).splitOn ':') .enoent false

/-- Where both searches follow `execvp`: no refused permission in front of a last candidate which is
too long, and the search goes on after the shell neither along `PATH` nor to an earlier refusal. -/
def Follows (refused : Bool) : List Text → Prop
  | [] => True
  | directory :: rest =>
    if pathMax ≤ (candidate file directory).length then
      (rest = [] → refused = false) ∧ Follows refused rest
    else
      let tried := attempt errnoOf argv (candidate file directory)
      if tried.2.continues then
        (errnoOf (candidate file directory) = .enoexec →
          rest = [] ∧ (tried.2 = .eacces ∨ refused = false)) ∧
            Follows (refused || tried.2 = .eacces) rest
      else True

variable {errnoOf file argv}

theorem Search.after_inj {attempts : List Attempt} {left right : Search} :
    left.after attempts = right.after attempts ↔ left = right := by
  simp [Search.after, Prod.ext_iff]

theorem prepublicationLoop_of_long {elements : List Text} {saved : Errno}
    (long : pathMax ≤ file.length) (nonempty : elements ≠ []) :
    prepublicationLoop errnoOf file argv elements saved false = ([], .enametoolong) := by
  induction elements generalizing saved with
  | nil => contradiction
  | cons directory rest ih =>
    have longCandidate : ¬ (candidate file directory).length + 1 ≤ pathMax := by
      grind [candidate]
    rw [prepublicationLoop, if_neg longCandidate]
    by_cases ends : rest = []
    · simp [ends, prepublicationLoop]
    · exact ih ends

theorem fallbackLoop_error_of_no_attempt {elements : List Text} {saved : Errno} {saw : Bool}
    (nonempty : elements ≠ [])
    (none : (fallbackLoop errnoOf file argv elements saved saw).1 = []) :
    (fallbackLoop errnoOf file argv elements saved saw).2 = .enametoolong := by
  induction elements generalizing saved with
  | nil => contradiction
  | cons _ rest ih =>
    have tried (path : Text) : (tryWithShell errnoOf argv path).1 ≠ [] := by
      unfold tryWithShell
      split <;> simp [Search.after, execve]
    rw [fallbackLoop] at none ⊢
    split at none
    next long =>
      rw [if_pos long]
      by_cases ends : rest = []
      · rw [ends, fallbackLoop]
      · exact ih ends none
    · simp only [Search.after] at none
      split_ifs at none <;> simp [tried] at none

section Arguments

variable (fewer : argv.length < maxVarargs)
include fewer

theorem prepublicationShell_eq (path : Text) :
    prepublicationShell errnoOf argv path =
      ([⟨binSh, binSh :: path :: argv.tail⟩], errnoOf binSh) := by
  rw [prepublicationShell, if_neg (Nat.not_le.mpr fewer), execve]

theorem tryWithShell_eq (path : Text) :
    tryWithShell errnoOf argv path = attempt errnoOf argv path := by
  have built : buildShellArgv argv path = .ok (binSh :: path :: argv.tail) :=
    if_neg (Nat.not_le.mpr fewer)
  simp only [tryWithShell, attempt, enoexecShellFallback, built, execve, Search.after,
    List.singleton_append]

/-- The induction is on the elements left. The last error only matters at their end, which the
second search leaves with its own. -/
theorem loops_follow_iff (elements : List Text) (nonempty : elements ≠ []) (saved : Errno)
    (refused : Bool) :
    (prepublicationLoop errnoOf file argv elements saved refused =
        searchElements errnoOf file argv elements saved refused ∧
      fallbackLoop errnoOf file argv elements saved refused =
        searchElements errnoOf file argv elements saved refused) ↔
      Follows errnoOf file argv refused elements := by
  induction elements generalizing saved refused with
  | nil => contradiction
  | cons directory rest ih =>
    simp only [prepublicationLoop, fallbackLoop, searchElements, Follows, tryWithShell_eq fewer,
      Nat.add_one_le_iff, ← Nat.not_le]
    by_cases long : pathMax ≤ (candidate file directory).length
    · simp only [long]
      by_cases ends : rest = []
      · simp [ends, prepublicationLoop, fallbackLoop, searchElements, Follows]
      · simp [ends, ih ends]
    · simp only [long, not_false_iff]
      by_cases unknown : errnoOf (candidate file directory) = .enoexec
      · simp only [unknown, attempt, prepublicationShell_eq fewer, Search.after]
        by_cases continues : (errnoOf binSh).continues
        · by_cases ends : rest = []
          · simp [ends, searchElements, Follows]
            grind
          · simp only [continues, ends, false_and, imp_false, if_true, not_true, if_false,
              iff_false]
            rintro ⟨stops, follows⟩
            -- The first search stops, so nothing was left that could be tried; the second search
            -- then ends with a candidate which is too long, not with an error to go on after.
            simp only [Prod.mk.injEq, List.cons_append, List.nil_append, List.cons.injEq, true_and,
              List.nil_eq] at stops follows
            have tooLong := fallbackLoop_error_of_no_attempt ends (follows.1.trans stops.1)
            rw [follows.2, ← stops.2] at tooLong
            simp [tooLong, Errno.continues] at continues
        · simp [continues]
      · simp only [unknown, attempt, execve]
        by_cases continues : (errnoOf (candidate file directory)).continues
        · by_cases ends : rest = []
          · simp [ends, prepublicationLoop, searchElements, Follows, Search.after]
          · simp [continues, ends, ih ends, Search.after_inj]
        · simp [continues]

end Arguments

/-- Both searches make the attempts of `execvp` and leave its error exactly under `Follows`, and
only for a name with a slash which is not too long. -/
theorem searches_follow_execvp_iff (errnoOf : Text → Errno) (file : Text) (argv environ : List Text)
    (fewer : argv.length < maxVarargs) :
    (prepublicationPathSearch errnoOf file argv environ = execvp errnoOf file argv environ ∧
      execvpeFallback errnoOf file argv environ = execvp errnoOf file argv environ) ↔
    (if file = [] then True
      else if '/' ∈ file then file.length < pathMax
      else Follows errnoOf file argv false ((prepublicationPath environ).splitOn ':')) := by
  have nonempty : (prepublicationPath environ).splitOn ':' ≠ [] := List.splitOnP_ne_nil _ _
  by_cases empty : file = []
  · simp [prepublicationPathSearch, execvpeFallback, execvp, empty]
  by_cases slash : '/' ∈ file
  · have same : execvpeFallback errnoOf file argv environ = execvp errnoOf file argv environ := by
      simp only [execvpeFallback, execvp, slash, if_true, tryWithShell_eq fewer]
    simp only [same, prepublicationPathSearch, execvp, empty, slash, prepublicationShell_eq fewer,
      attempt]
    by_cases long : pathMax ≤ file.length
    · simp only [Nat.not_lt.mpr long]
      split_ifs <;> simp
    · simp [Nat.not_le.mp long, execve, Search.after]
  · rw [if_neg empty, if_neg slash, ← loops_follow_iff fewer _ nonempty .enoent]
    simp only [prepublicationPathSearch, execvpeFallback, execvp]
    split_ifs with long
    · rw [prepublicationLoop_of_long long nonempty]
      rfl
    · rfl

theorem searches_follow_execvp_missing :
    ["run".toList].length < maxVarargs ∧
      prepublicationPathSearch (fun _ => .enoent) "run".toList ["run".toList] [] =
        execvp (fun _ => .enoent) "run".toList ["run".toList] [] ∧
      execvpeFallback (fun _ => .enoent) "run".toList ["run".toList] [] =
        execvp (fun _ => .enoent) "run".toList ["run".toList] [] := by
  have elements : (prepublicationPath []).splitOn ':' = ["/bin".toList, "/usr/bin".toList] := by
    decide
  exact ⟨by decide, (searches_follow_execvp_iff _ _ _ _ (by decide)).mpr
    (by simp +decide [elements, Follows])⟩

/-- After a script without its shell `execvp` tries the next element and reports the refused
permission; the first search does neither. -/
theorem prepublication_search_ends_with_shell :
    let errnoOf (path : Text) : Errno :=
      if path = "/x/run".toList then .eacces
      else if path = "/y/run".toList then .enoexec else .enoent
    let argv := ["run".toList]
    let shell : List Attempt := [⟨"/x/run".toList, argv⟩, ⟨"/y/run".toList, argv⟩,
      ⟨binSh, [binSh, "/y/run".toList]⟩]
    let environ := ["PATH=/x:/y:/z".toList]
    argv.length < maxVarargs ∧
      prepublicationPathSearch errnoOf "run".toList argv environ = (shell, .enoent) ∧
      execvp errnoOf "run".toList argv environ =
        (shell ++ [⟨"/z/run".toList, argv⟩], .eacces) := by
  decide +kernel

end Peak.Exec
