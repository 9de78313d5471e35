import Mathlib
import Toss.Web.EditorSync

/-!
# What an agent's context leaves out

`contextManager.ts`. The transcript of an agent stays as it is; what a model gets of it is cut to a
budget of tokens: whole turns from the front first, then the older tool messages of the turn that is
left, one after the other. How many tokens a message takes is a library's estimate.

* `AgentMessage`, `JsonValue` — messages, with what the passes read of them;
* `compactToolHistoryMessage`, `latestToolBatchStart` — what a tool message is compacted to, and
  from where on none is;
* `transformAgentContext` — the three passes.
-/

namespace Toss.Web

/-! ## Messages -/

/-- A value that JSON writes; a number as it is written. -/
inductive JsonValue
  | null
  | bool (value : Bool)
  | number (literal : JsString)
  | string (value : JsString)
  | array (items : List JsonValue)
  | object (entries : List (JsString × JsonValue))

def hexUnit (digit : Nat) : UInt16 :=
  if digit < 10 then (48 + digit).toUInt16 else (87 + digit).toUInt16

/-- A unit within a JSON string, before the unit that follows it; `paired` tells that the unit
before it was the first half of a surrogate pair. -/
def quoteUnit (unit : UInt16) (next : Option UInt16) (paired : Bool) : JsString :=
  let escaped := jsString "\\u" ++
    [12, 8, 4, 0].map fun shift => hexUnit (unit.toNat / 2 ^ shift % 16)
  let isHigh := 0xD800 ≤ unit ∧ unit ≤ 0xDBFF
  let isLow := 0xDC00 ≤ unit ∧ unit ≤ 0xDFFF
  if unit = 34 then jsString "\\\""
  else if unit = 92 then jsString "\\\\"
  else if unit = 8 then jsString "\\b"
  else if unit = 12 then jsString "\\f"
  else if unit = 10 then jsString "\\n"
  else if unit = 13 then jsString "\\r"
  else if unit = 9 then jsString "\\t"
  else if unit < 32 then escaped
  else if isHigh ∧ ¬(next.any fun low => 0xDC00 ≤ low && low ≤ 0xDFFF) then escaped
  else if isLow ∧ ¬paired then escaped
  else [unit]

def quoteUnits (paired : Bool) : JsString → JsString
  | [] => []
  | unit :: units =>
    let isPair := 0xD800 ≤ unit && unit ≤ 0xDBFF
      && units.head?.any fun low => 0xDC00 ≤ low && low ≤ 0xDFFF
    quoteUnit unit units.head? paired ++ quoteUnits isPair units

def quoteString (text : JsString) : JsString :=
  [34] ++ quoteUnits false text ++ [34]

/-- Texts with commas between them. -/
def joinCommas : List JsString → JsString
  | [] => []
  | [text] => text
  | text :: texts => text ++ [44] ++ joinCommas texts

mutual

/-- `safeJson` of a value; a value of these writes without an error. -/
def safeJson : JsonValue → JsString
  | .null => jsString "null"
  | .bool value => if value then jsString "true" else jsString "false"
  | .number literal => literal
  | .string value => quoteString value
  | .array items => [91] ++ joinCommas (safeJsonItems items) ++ [93]
  | .object entries => [123] ++ joinCommas (safeJsonEntries entries) ++ [125]

def safeJsonItems : List JsonValue → List JsString
  | [] => []
  | item :: items => safeJson item :: safeJsonItems items

def safeJsonEntries : List (JsString × JsonValue) → List JsString
  | [] => []
  | (key, value) :: entries =>
    (quoteString key ++ [58] ++ safeJson value) :: safeJsonEntries entries

end

/-- A part of what an assistant said; `μ` is what no function here reads. -/
inductive AssistantPart (μ : Type)
  | toolCall (id name : JsString) (arguments : JsonValue) (fields : μ)
  | other (fields : μ)

inductive ResultPart (μ : Type)
  | text (text : JsString)
  | other (fields : μ)

inductive AgentMessage (μ : Type)
  | user (fields : μ)
  | assistant (content : List (AssistantPart μ)) (fields : μ)
  | toolResult (toolCallId toolName : JsString) (content : List (ResultPart μ))
      (details : Option μ) (fields : μ)
  | other (fields : μ)

structure AgentTool where
  name : JsString
  description : JsString
  parameters : JsonValue

namespace AgentMessage

variable {μ : Type}

def isUser : AgentMessage μ → Bool
  | .user _ => true
  | _ => false

def isToolResult : AgentMessage μ → Bool
  | .toolResult .. => true
  | _ => false

end AgentMessage

def AssistantPart.isToolCall {μ : Type} : AssistantPart μ → Bool
  | .toolCall .. => true
  | .other _ => false

/-! ## Estimates -/

def charsPerToken : Nat := 4

def compactedArgument : JsString :=
  jsString "[omitted from older tool history; call the tool again if needed]"

def estimateTextTokens (text : JsString) : Nat :=
  (text.length + charsPerToken - 1) / charsPerToken

def AgentTool.schema (tool : AgentTool) : JsonValue :=
  .object [(jsString "name", .string tool.name), (jsString "description", .string tool.description),
    (jsString "parameters", tool.parameters)]

def estimateRuntimeOverhead (systemPrompt : JsString) (tools : List AgentTool) : Nat :=
  estimateTextTokens systemPrompt
    + estimateTextTokens (safeJson (.array (tools.map AgentTool.schema)))

variable {μ N : Type} [Ring N] [LinearOrder N]

def estimateFreshContext (estimateTokens : AgentMessage μ → N) (messages : List (AgentMessage μ))
    (overheadTokens : N) : N :=
  overheadTokens + messages.foldl (fun total message => total + estimateTokens message) 0

/-! ## Compaction -/

def hasToolCall : AgentMessage μ → Bool
  | .assistant content _ => content.any AssistantPart.isToolCall
  | _ => false

mutual

def compactValue : JsonValue → JsonValue
  | .string value => if 256 < value.length then .string compactedArgument else .string value
  | .array items => .array (compactItems items)
  | .object entries => .object (compactEntries entries)
  | value => value

def compactItems : List JsonValue → List JsonValue
  | [] => []
  | item :: items => compactValue item :: compactItems items

def compactEntries : List (JsString × JsonValue) → List (JsString × JsonValue)
  | [] => []
  | (key, entry) :: entries => (key, compactValue entry) :: compactEntries entries

end

def AssistantPart.compact : AssistantPart μ → Option (AssistantPart μ)
  | .toolCall id name arguments fields => some (.toolCall id name (compactValue arguments) fields)
  | .other _ => none

def compactToolHistoryMessage (message : AgentMessage μ) : AgentMessage μ :=
  match message with
  | .toolResult toolCallId toolName _ _ fields =>
    .toolResult toolCallId toolName
      [.text (safeJson (.object [(jsString "context_compacted", .bool true),
        (jsString "tool", .string toolName)]))] none fields
  | .assistant content fields =>
    if hasToolCall message then .assistant (content.filterMap AssistantPart.compact) fields
    else message
  | _ => message

/-- The loop of `latestToolBatchStart`, from a length down to the start of the turn. -/
def batchStart (messages : List (AgentMessage μ)) (currentTurnStart : Int) (sawToolResult : Bool) :
    Nat → Nat
  | 0 => messages.length
  | index + 1 =>
    if (index : Int) ≤ currentTurnStart then messages.length
    else
      match messages[index]? with
      | none => messages.length
      | some message =>
        if message.isToolResult then batchStart messages currentTurnStart true index
        else if sawToolResult && hasToolCall message then index
        else messages.length

def latestToolBatchStart (messages : List (AgentMessage μ)) (currentTurnStart : Int) : Nat :=
  batchStart messages currentTurnStart false messages.length

/-! ## The context -/

def userIndices (messages : List (AgentMessage μ)) : List Nat :=
  messages.zipIdx.filterMap fun (message, index) => if message.isUser then some index else none

/-- The loop over the later turns: the start of the first that fits from there on, or of the last. -/
def dropTurns (fits : Nat → Bool) : List Nat → Nat → Nat
  | [], start => start
  | nextStart :: starts, _ => if fits nextStart then nextStart else dropTurns fits starts nextStart

/-- The last user message, or `-1`. -/
def currentTurnStart (messages : List (AgentMessage μ)) : Int :=
  match (userIndices messages).getLast? with
  | some index => index
  | none => -1

def isToolMessage (message : AgentMessage μ) : Bool :=
  message.isToolResult || hasToolCall message

/-- The loop over the older tool messages, with how many it has compacted. -/
def compactMessages (estimateTokens : AgentMessage μ → N) (fits : List (AgentMessage μ) → Bool) :
    List Nat → List (AgentMessage μ) → Nat → List (AgentMessage μ) × Nat
  | [], transformed, compactedToolMessages => (transformed, compactedToolMessages)
  | index :: indices, transformed, compactedToolMessages =>
    match transformed[index]? with
    | none => (transformed, compactedToolMessages)
    | some current =>
      if !isToolMessage current then
        compactMessages estimateTokens fits indices transformed compactedToolMessages
      else
        let compacted := compactToolHistoryMessage current
        if estimateTokens current ≤ estimateTokens compacted then
          compactMessages estimateTokens fits indices transformed compactedToolMessages
        else
          let transformed := transformed.set index compacted
          if fits transformed then (transformed, compactedToolMessages + 1)
          else compactMessages estimateTokens fits indices transformed (compactedToolMessages + 1)

structure AiContextTransformOptions (μ N : Type) where
  messages : List (AgentMessage μ)
  systemPrompt : JsString
  tools : List AgentTool
  contextWindow : N
  maxOutputTokens : N
  safetyTokens : N

structure AiContextTransformResult (μ N : Type) where
  messages : List (AgentMessage μ)
  contextTokens : N
  inputBudgetTokens : N
  compactedMessages : Nat
  overflow : Bool

namespace AiContextTransformOptions

def inputBudgetTokens (options : AiContextTransformOptions μ N) : N :=
  max 0 (options.contextWindow - options.maxOutputTokens - options.safetyTokens)

def overheadTokens (options : AiContextTransformOptions μ N) : N :=
  estimateRuntimeOverhead options.systemPrompt options.tools

/-- Messages that are within the budget. -/
def fits (options : AiContextTransformOptions μ N) (estimateTokens : AgentMessage μ → N)
    (messages : List (AgentMessage μ)) : Bool :=
  estimateFreshContext estimateTokens messages options.overheadTokens ≤ options.inputBudgetTokens

end AiContextTransformOptions

def transformAgentContext (estimateTokens : AgentMessage μ → N)
    (options : AiContextTransformOptions μ N) : AiContextTransformResult μ N :=
  let original := options.messages
  let fits := options.fits estimateTokens
  let contextTokens := fun messages =>
    estimateFreshContext estimateTokens messages options.overheadTokens
  if fits original then
    { messages := original
      contextTokens := contextTokens original
      inputBudgetTokens := options.inputBudgetTokens
      compactedMessages := 0
      overflow := false }
  else
    let start := dropTurns (fun start => fits (original.drop start)) (userIndices original).tail 0
    let messages := original.drop start
    let (messages, compactedToolMessages) :=
      if fits messages then (messages, 0)
      else
        let turnStart := (max 0 (currentTurnStart messages + 1)).toNat
        let protectedStart := latestToolBatchStart messages (currentTurnStart messages)
        compactMessages estimateTokens fits (List.range' turnStart (protectedStart - turnStart))
          messages 0
    { messages := messages
      contextTokens := contextTokens messages
      inputBudgetTokens := options.inputBudgetTokens
      compactedMessages := start + compactedToolMessages
      overflow := decide (options.inputBudgetTokens < contextTokens messages) }

end Toss.Web
