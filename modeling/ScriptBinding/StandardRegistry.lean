import ScriptBinding.Registry

/-! # The standard structures and events -/

namespace ScriptBinding.Registry

/-- Register the structures that every host has. -/
def registerStructures (registry : Registry) : Except PatternError Registry := do
  let registry ← registry.register "options" (some 10) (fun _ => .options {}) ["options"]
  let registry ← registry.register "function" (some 20) (fun _ => .function {}) ["function <.+>"]
  let registry ← registry.register "aliases" none (fun _ => .aliases) ["aliases"]
  let registry ← registry.register "variables" none (fun _ => .defaults {}) ["variables"]
  registry.register "command" none (fun ticket => .command { ticket }) ["command <.+>"]

/-- Register the events that every host has. -/
def registerEvents (registry : Registry) : Except PatternError Registry := do
  let registry ← registry.registerEvent "chat" ["chat"] (.simple "chat") ["chat"]
  let registry ← registry.registerEvent "join" ["join"] (.simple "join") ["[player] join[ing]"]
  let registry ← registry.registerEvent "click" ["interact"] (.click .any)
    ["[(1¦left|2¦right)[ ]]click[ing]"]
  registry.registerEvent "script load" ["script load"] .scriptLoad ["[script] (load|enable)"]

/-- The structures and events that every host has. -/
def standard? : Except PatternError Registry := do
  registerEvents (← registerStructures {})

/-- The structures and events that every host has. -/
def standard : Registry :=
  standard?.toOption.getD {}

end ScriptBinding.Registry
