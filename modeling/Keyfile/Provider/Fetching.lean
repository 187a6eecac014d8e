import Keyfile.Configuration.Surroundings
import Keyfile.Provider.Settings

/-!
# Fetching configurations

A provider is asked for the text of a configuration. Its answer is kept in a cache file, which takes
its place when it has no answer or fails. A configuration names its provider, and what the provider
is asked with, under keys of its own.
-/

namespace Keyfile.Provider

def providerKey : Text := "Config.CustomProvider".toList

def requestOf (config : Surrounded) : Session Request := do
  let text (name : String) : Session Text := do
    return (← config.get? none name.toList).getD []
  let settings := settings (← text "Config.Settings")
  let cacheFile ← config.get? none "Config.CacheFile".toList
  let named ← text "Config.MachineName"
  let machineName ←
    if named = [] then config.expand "$(MachineName)".toList else pure named
  let executable ← text "Config.ExeFile"
  let version ← text "Config.ExeVersion"
  let usage ← text "Config.Usage"
  return { settings, cacheFile, machineName, executable, version, usage }

def find (name : Text) : Session TypeName := do
  match (← get).registry.catalogue.find? name with
  | none => throw (.refusal (.providerMissing name))
  | some entry =>
    if entry.isProvider then return entry.type else throw (.refusal (.providerUnfit name))

def ask (request : Request) : Session Reply := do
  let world ← get
  set { world with replies := world.replies.tail, requests := request :: world.requests }
  return world.replies.head?.getD .nothing

/-- Keeps an answer in the cache; a cache that cannot be written is let be. -/
def keep (cache : Path) (text : Text) : Session Unit := do
  match ← Session.attempt (Session.writeText cache text) with
  | .ok () => return ()
  | .error failure => if failure.isOfFiles then return () else throw failure

def fetch (request : Request) : Session (Option Text) := do
  let reply ← ask request
  let cache := request.cacheFile.filter (· ≠ [])
  match reply, cache with
  | .text text, none => return some text
  | .text text, some file =>
    keep (← Session.resolve file) text
    return some text
  | _, none => return none
  | _, some file =>
    if ← Session.isThere file then return some (← Session.readText (← Session.resolve file))
    else return none

/-- The text that the provider named by a configuration has for it; none without a provider. -/
def customText (config : Surrounded) : Session (Option Text) := do
  match ← config.get? none providerKey with
  | none | some [] => return none
  | some name =>
    let _ ← find name
    fetch (← requestOf config)

end Keyfile.Provider
