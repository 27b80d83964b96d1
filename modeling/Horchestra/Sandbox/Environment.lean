import Horchestra.Agent.Workload
import Horchestra.Foundations.Assignments

/-!
# The environment a workload starts with

The sandbox appends the variables of the secret environment file to those of its configuration, adds
a search path when none is set, and looks the program up along the search path before it starts it.

`lookPath_eq` says along which path: the value of the first assignment to `PATH`, or the default
where that is empty.
-/

namespace Horchestra.Sandbox

open Agent Foundations Text Checks Assignments

def defaultDirs : String := "/usr/local/sbin:/usr/local/bin:/usr/sbin:/usr/bin:/sbin:/bin"

def defaultPath : String := "PATH=" ++ defaultDirs

def envHas (env : List String) (key : String) : Bool :=
  env.any fun e => (cutPrefix (key ++ "=") e).isSome

def checkLine (line : List Char) : Except String String :=
  match cut '=' line with
  | some (_ :: _, _) => .ok (String.ofList line)
  | _ => .error ("secret env: " ++ quote (String.ofList line) ++ " is not an assignment")

/-- The assignments of an environment file; the empty path names none. -/
def readSecretEnv (readFile : String → Except String String) (path : String) :
    Except String (List String) :=
  if path = "" then .ok []
  else
    match readFile path with
    | .error e => .error ("secret env: " ++ e)
    | .ok content => (nonemptyLines (content.toList.rdropWhile (· == '\n'))).mapM checkLine

def environment (readFile : String → Except String String) (cfg : SandboxConfig) :
    Except String (List String) := do
  let secretEnv ← readSecretEnv readFile cfg.secretEnvFile
  let env := cfg.env ++ secretEnv
  return if envHas env "PATH" then env else env ++ [defaultPath]

/-- The first file of a given name in the directories of a search path. -/
def search (isFile : String → Bool) (argv0 path : String) : Except String String :=
  match ((path.toList.splitOn ':').map fun dir => joinPath [String.ofList dir, argv0]).find? isFile with
  | some file => .ok file
  | none => .error (quote argv0 ++ " not found on PATH")

/-- The program to start. -/
def lookPath (isFile : String → Bool) (argv0 : String) (env : List String) : Except String String :=
  if argv0.toList.contains '/' then .ok argv0
  else
    let path := (env.findSome? (cutPrefix "PATH=")).getD ""
    let path := if path = "" then (cutPrefix "PATH=" defaultPath).getD "" else path
    search isFile argv0 path

/-! ## What they read -/

theorem envHas_iff {env : List String} {key : String} (plain : '=' ∉ key.toList) :
    envHas env key = true ↔ key ∈ (assignments env).map Prod.fst := by
  rw [envHas, List.any_eq_true, List.mem_map]
  constructor
  · rintro ⟨e, mem, starts⟩
    obtain ⟨v, found⟩ := Option.isSome_iff_exists.1 starts
    exact ⟨(key, v), List.mem_filterMap.2 ⟨e, mem, (cutPrefix_eq_some_iff plain).1 found⟩, rfl⟩
  rintro ⟨⟨name, v⟩, mem, rfl⟩
  obtain ⟨e, hit, found⟩ := List.mem_filterMap.1 mem
  exact ⟨e, hit, by rw [(cutPrefix_eq_some_iff plain).2 found]; rfl⟩

/-- The variables of a list, followed by the default search path if they set none. -/
def withDefault (vars : List (String × String)) : List (String × String) :=
  if "PATH" ∈ vars.map Prod.fst then vars else vars ++ [("PATH", defaultDirs)]

theorem assignments_environment {readFile : String → Except String String} (cfg : SandboxConfig)
    {env : List String} (read : readSecretEnv readFile cfg.secretEnvFile = .ok env) :
    ∃ envp, environment readFile cfg = .ok envp ∧
      assignments envp = withDefault (assignments (cfg.env ++ env)) := by
  have path : assignments [defaultPath] = [("PATH", defaultDirs)] := by decide +kernel
  have plain : '=' ∉ "PATH".toList := by decide
  rw [environment, read]
  refine ⟨_, rfl, ?_⟩
  rw [withDefault]
  by_cases set : envHas (cfg.env ++ env) "PATH" = true
  · rw [if_pos set, if_pos ((envHas_iff plain).1 set)]
  · rw [if_neg set, if_neg fun hit => set ((envHas_iff plain).2 hit), assignments_append, path]

theorem lookPath_eq (isFile : String → Bool) {argv0 : String} (bare : '/' ∉ argv0.toList)
    (env : List String) :
    lookPath isFile argv0 env =
      search isFile argv0 (match (assignments env).lookup "PATH" with
        | none => defaultDirs
        | some path => if path = "" then defaultDirs else path) := by
  have named : env.findSome? (cutPrefix "PATH=") = (assignments env).lookup "PATH" :=
    findSome?_cutPrefix (show '=' ∉ "PATH".toList by decide) env
  have standard : (cutPrefix "PATH=" defaultPath).getD "" = defaultDirs := by decide +kernel
  rw [lookPath, if_neg (by simpa using bare), named, standard]
  cases (assignments env).lookup "PATH" with
  | none | some path => rfl

/-- **Reading an environment file back** returns the assignments it was written from. -/
theorem readSecretEnv_unlines {readFile : String → Except String String} {path content : String}
    {vars : List (String × String)} (given : path ≠ "") (read : readFile path = .ok content)
    (wrote : content.toList = unlines (vars.map fun var => (assign var.1 var.2).toList))
    (plain : ∀ var ∈ vars, var.1 ≠ "" ∧ '=' ∉ var.1.toList ∧ '\n' ∉ (assign var.1 var.2).toList) :
    readSecretEnv readFile path = .ok (vars.map fun var => assign var.1 var.2) := by
  have lines : nonemptyLines (content.toList.rdropWhile (· == '\n')) =
      vars.map fun var => (assign var.1 var.2).toList := by
    rw [nonemptyLines_rdropWhile, wrote]
    apply nonemptyLines_unlines
    intro e mem
    obtain ⟨var, hit, rfl⟩ := List.mem_map.1 mem
    exact ⟨by simp [assign], (plain var hit).2.2⟩
  have checked (var : String × String) (mem : var ∈ vars) :
      checkLine (assign var.1 var.2).toList = .ok (assign var.1 var.2) := by
    obtain ⟨ne, unsigned, -⟩ := plain var mem
    have text : (assign var.1 var.2).toList = var.1.toList ++ '=' :: var.2.toList := by
      simp [assign]
    obtain ⟨first, rest, name⟩ := List.exists_cons_of_ne_nil
      (fun empty => ne (String.toList_eq_nil_iff.1 empty))
    rw [checkLine, text, cut_append _ _ _ unsigned, name]
    dsimp only
    rw [← name, ← text, String.ofList_toList]
  have collected : (vars.map fun var => (assign var.1 var.2).toList).mapM checkLine =
      .ok ((vars.map fun var => (assign var.1 var.2).toList).map String.ofList) := by
    apply mapM_eq_ok
    intro line mem
    obtain ⟨var, hit, rfl⟩ := List.mem_map.1 mem
    rw [checked var hit, String.ofList_toList]
  rw [readSecretEnv, if_neg given, read]
  dsimp only
  rw [lines, collected, List.map_map]
  congr 1
  apply List.map_congr_left
  intro var _
  rw [Function.comp_apply, String.ofList_toList]

end Horchestra.Sandbox
