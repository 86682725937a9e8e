import Causeway.Machine.Program
import Causeway.Log.Filter
/-!
# Sessions

A process that sets up logging and settings, runs a program, and may try to set them up once more.
Only the first attempt installs a log, and only if the host has none of its own.
-/
set_option autoImplicit false

namespace Causeway.Machine

inductive Setup where
  | config (document : String)
  /-- A document, and another one in case the first does not load. -/
  | fallback (loaded document : String)
  /-- A named file, and a level that overrides it. -/
  | named (document : String)
  | logging (c : Log.Config)
  | variables

structure Session where
  setup : Setup
  env : Log.Variables
  /-- Log files are set up, whatever else is asked for. -/
  toFiles : Bool
  /-- The host has a log of its own. -/
  host : Bool
  again : Bool
  ops : List Op

structure Initial where
  log : Log.Config
  settings : Settings
  events : List Log.Event

structure SessionReport where
  guarded : Bool
  settings : Settings
  program : Report
  /-- Whether the second attempt installed a log, if there was one. -/
  again : Option Bool
  written : Bool
  json : Bool
  log : List Log.Event

namespace Initial

def ofConfig (c : Config) (events : List Log.Event) : Initial :=
  ⟨c.log, c.settings, .started :: events⟩

def orElse (loaded : Except Config.LoadError Config) (c : Config) : Initial :=
  match loaded with
  | .ok loaded => ofConfig loaded []
  | .error _ => ofConfig c [.configurationIgnored]

end Initial

def configOr (document : String) : Config :=
  match Config.ofDocument document with
  | .ok c => c
  | .error _ => {}

def Setup.initial (env : Log.Variables) : Setup → Initial
  | .config document => .ofConfig (configOr document) []
  | .fallback loaded document => .orElse (Config.ofDocument loaded) (configOr document)
  | .named document =>
    let file := Config.File.bytes document.toUTF8
    .orElse (Config.ofNamed (some ("c.toml", file)) (env.lookup "PYBRIDGE_LOG_LEVEL")) {}
  | .logging c => ⟨c, {}, []⟩
  | .variables => ⟨.ofVariables env, {}, []⟩

def Session.output (s : Session) (c : Log.Config) : Log.Output :=
  if s.toFiles then .files "logs" Log.fileStem else c.output

/-- Runs a session. Events that no filter lets through are lost; only lines of JSON can be read
back, and not if a complaint about the filter stands between them. -/
def Session.run (s : Session) : Option SessionReport := do
  let initial := s.setup.initial s.env
  let (program, events) ← Program.run false initial.settings s.ops
  let second := if s.again then [Log.Event.started] else []
  let filter := Log.Filter.build initial.log.level (s.env.lookup "RUST_LOG") initial.log.filter
  let events := (initial.events ++ events ++ second).filter fun e => !s.host && filter.lets e
  let complaint :=
    s.output initial.log == .stderr && Log.Filter.complains (s.env.lookup "RUST_LOG")
  let written := complaint || !events.isEmpty
  let json := written && !complaint && initial.log.format == .json
  pure {
    guarded := !s.host
    settings := initial.settings
    program
    again := if s.again then some false else none
    written
    json
    log := if json then events.filter fun e => !e.isAboutTypes else [] }

end Causeway.Machine
