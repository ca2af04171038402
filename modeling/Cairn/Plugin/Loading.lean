import Cairn.Plugin.Module

set_option autoImplicit false

/-!
Finding and loading plugins by name. A plugin is a module that exports one, or a script in the
language; either may be a file of the plugin's name or the index of a directory of that name.
-/

namespace Cairn.Plugin

/-- The directories searched: `plugins` under the base, then those of the plugin path. -/
def searchPath (w : World) (base : Path) : List Path :=
  let listed := Text.split ':' (w.environment.pluginPath?.getD "")
  base.resolve "plugins" :: (listed.filter (· ≠ "")).map w.directory.resolve

/-- The files a name can stand for in a directory, modules before scripts. -/
def candidates (name : String) (directory : Path) : List Path := [
  directory.resolve (name ++ ".js"),
  (directory.resolve name).resolve "index.js",
  directory.resolve (name ++ ".cairn"),
  (directory.resolve name).resolve "index.cairn"]

def locate? (w : World) (name : String) (base : Path) : Option Path :=
  ((searchPath w base).flatMap (candidates name)).find? w.files.contains

/-- A plugin as found. -/
inductive Source where
  | script (path : Path) (text : String)
  | module (plugin : Plugin)

/-- The plugin that a module hands over. A member that fails when it is taken fails as it does. -/
def accept (name : String) (x : Export) : Except Fault Source := do
  match ← (← x.primary).plugin? with
  | some p => return .module p
  | none => throw (.plugin (.invalid name))

/-- What loading a module that does not load fails with. -/
def refuse (name : String) (e : ModuleError) : Fault :=
  match e.text with
  | .ok reason => .plugin (.notLoadable name reason)
  | .error complaint => complaint

/-- Finds a plugin and checks it. A script that cannot be read fails as the file does. -/
def fetch (w : World) (name : String) (base : Path) : Except Fault Source :=
  match locate? w name base with
  | none => .error (.plugin (.notFound name))
  | some path =>
    if path.toString.endsWith ".cairn" then
      match w.files.read path with
      | .ok text => .ok (.script path text)
      | .error e => .error (.file e)
    else
      match Module.load w.files path with
      | .error e => .error (refuse name e)
      | .ok x => accept name x

namespace Source

/-- Fails with a failure of the plugin for the reason that another failure gives. -/
def failFor (fault : Fault) (error : String → LoadError) : Routine Unit := do
  let reason ← Routine.ofExcept fault.text
  .fail (.plugin (error reason))

/-- Runs a script or installs a module's plugin; whatever fails on the way is a failure of the
plugin. -/
def install (name : String) : Source → Routine Unit
  | .script path text => do
    match ← (Routine.run text).attempt with
    | .ok _ => Routine.trace ("Loaded plugin \"" ++ name ++ "\" from " ++ path.toString)
    | .error fault => failFor fault (.scriptFailed name)
  | .module p => do
    match ← p.install.attempt with
    | .ok _ => return ()
    | .error fault => failFor fault (.setupFailed name)

def describe (descriptions : Table String) : Source → Table String
  | .script .. => descriptions
  | .module p => p.describe descriptions

end Source

/-- Finds a plugin and loads it. -/
def load (w : World) (name : String) (base : Path) : Routine Unit :=
  match fetch w name base with
  | .ok source => source.install name
  | .error fault => .fail fault

end Cairn.Plugin
