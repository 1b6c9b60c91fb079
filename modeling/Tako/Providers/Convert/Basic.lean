import Tako.Core.Chat
import Tako.Rust.Str

/-!
# Requests on the wire

What the `convert.rs` of several provider crates have in common, each as its own copy.
-/

namespace Tako.Providers

def roleToStr : Role → String
  | .system => "system"
  | .user => "user"
  | .assistant => "assistant"
  | .tool => "tool"

theorem roleToStr_eq_tool {role : Role} : roleToStr role = "tool" ↔ role = .tool := by
  cases role <;> decide

/-- A leading `data:...,` is dropped. -/
def stripDataUrlPrefix (s : String) : String :=
  ((Str.stripPrefix s "data:").bind (Str.afterFirst · ',')).getD s

/-- The `function` of a tool on the wire. -/
structure WireFunction where
  name : String
  description : String
  parameters : Json

structure WireTool where
  kind : String := "function"
  function : WireFunction

def toolSchemaToWire (t : ToolSchema) : WireTool where
  function := { name := t.name, description := t.description, parameters := t.inputSchema }

end Tako.Providers
