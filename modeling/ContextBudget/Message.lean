import ContextBudget.Json.Decode

/-!
# Messages

A conversation is a list of messages in order. A stage replaces the content of a message and
leaves its place alone: role, position and tool call stay (`Message.withContent`).
-/

namespace ContextBudget

/-- Who a message is from. -/
inductive Role where
  | system
  | user
  | assistant
  /-- Results of tools and console output. -/
  | tool
  deriving DecidableEq, Repr

/-- The name of a role. -/
def Role.text : Role → String
  | system => "system"
  | user => "user"
  | assistant => "assistant"
  | tool => "tool"

/-- One message of a conversation. -/
structure Message where
  role : Role
  content : String
  /-- The position of the message in the conversation that the client sent. -/
  index : Nat
  /-- The tool call that the message answers. -/
  callId : Option String
  deriving DecidableEq, Repr

/-- An ordered list of messages. -/
abbrev Conversation := List Message

namespace Message

/-- A message without position. -/
def of (role : Role) (content : String) : Message := ⟨role, content, 0, none⟩

/-- The result of a tool call. -/
def toolResult (callId content : String) : Message := ⟨.tool, content, 0, some callId⟩

/-- The same place in the conversation with another content. -/
def withContent (m : Message) (content : String) : Message := { m with content }

/-- Whether the message is an instruction of the system. -/
def isSystem (m : Message) : Bool := m.role == .system

/-- Messages whose positions are their places in the list. -/
def inOrder (messages : List Message) : Conversation :=
  messages.zipIdx.map fun (m, i) => { m with index := i }

/-- The names of the roles. -/
def roles : List (String × Role) :=
  [Role.system, .user, .assistant, .tool].map fun r => (r.text, r)

/-- The JSON form of a message. -/
def toJson (m : Message) : Json :=
  .obj ([("role", .str m.role.text), ("content", .str m.content), ("sequence_index", .ofNat m.index)]
    ++ (m.callId.map fun id => ("tool_call_id", Json.str id)).toList)

/-- The JSON form of a conversation. -/
def listJson (messages : Conversation) : Json := .arr (messages.map toJson)

/-- The message that a JSON value denotes. -/
def ofJson? (v : Json) : Option Message := do
  let r ← Record.ofJson? ["role", "content", "sequence_index", "tool_call_id"] v
  return {
    role := ← r.required "role" (Json.choice? roles)
    content := ← r.required "content" Json.text?
    index := ← r.withDefault "sequence_index" 0 Json.word?
    callId := ← r.withDefault "tool_call_id" none (Record.nullable Json.text?) }

@[simp] theorem withContent_role (m : Message) (s : String) : (m.withContent s).role = m.role := rfl

@[simp] theorem withContent_index (m : Message) (s : String) :
    (m.withContent s).index = m.index := rfl

@[simp] theorem withContent_callId (m : Message) (s : String) :
    (m.withContent s).callId = m.callId := rfl

@[simp] theorem withContent_content (m : Message) (s : String) :
    (m.withContent s).content = s := rfl

end Message
end ContextBudget
