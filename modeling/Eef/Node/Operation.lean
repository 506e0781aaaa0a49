import Eef.Node.Grant

/-!
# The shape of one operation

`OperationShape::validate` of `grants.rs` and the parameter contracts of
`pipeline.rs` and `request_planning.rs`: which capability and action may be
granted, which parameters each accepts, which of them may carry data from an
earlier stage, and what a model operation's literals must look like. None of it
is authority; it is what a step of a compound definition has to satisfy before
the graph around it is looked at.
-/

namespace Eef.Node

open Eef.Lib

/-- `OperationShape`: borrowed operation fields. -/
structure OperationShape where
  capability : String
  action : String
  params : Json
  resourceId : Option String
  modelId : Option String
  backend : Option String
  modelRole : Option String

/-- The `matches!` of `OperationShape::validate`. -/
def supportedOperation (capability action : String) : Bool :=
  match capability with
  | "system.info" | "system.ping" | "process.exec" => action == "run"
  | "filesystem" => ["read", "write", "list"].contains action
  | "application.control" => action == "launch"
  | "http.request" => action == "send"
  | "stt.transcribe" => action == "transcribe"
  | "network.wol" => action == "wake"
  | "llm.infer" | "vlm.analyze" => ["run", "analyze"].contains action
  | "camera.capture" | "screen.capture" => action == "capture"
  | "audio.capture" => action == "record"
  | "audio.play" => action == "play"
  | "tts.speak" => action == "speak"
  | "input.control" => ["type", "press", "move", "click", "scroll"].contains action
  | _ => false

/-- `capability` is `llm.infer` or `vlm.analyze`. -/
def isModel (capability : String) : Bool := capability == "llm.infer" || capability == "vlm.analyze"

/-- `str::split_once("::")`. -/
def splitOwner : List Char → List Char → Option (List Char × List Char)
  | _, [] => none
  | acc, ':' :: ':' :: cs => some (acc.reverse, cs)
  | acc, c :: cs => splitOwner (c :: acc) cs

/-- Whether a resource identifier belongs to `executor`, or to any node. -/
def ownedResource (executor : Option String) (resource : String) : Bool :=
  match executor with
  | some node =>
    let start := node.toList ++ [':', ':']
    start.length < resource.toList.length && start.isPrefixOf resource.toList
  | none =>
    match splitOwner [] resource.toList with
    | some (node, rest) => rest != [] && remoteNodeId (String.ofList node)
    | none => false

section
variable [F64]

/-- `OperationShape::validate`. -/
def OperationShape.validate (o : OperationShape) (executor : Option String) : Result Unit := do
  bailIf (o.params.isObject = false ∨ o.params.size > 64 * 1024)
    "Invalid or oversized operation parameters"
  ensure (supportedOperation o.capability o.action) "Unsupported granted operation contract"
  match o.resourceId with
  | some resource =>
    bailIf (resource.utf8ByteSize > 256 ∨ ownedResource executor resource = false
      ∨ resource.toList.any isControl ∨ o.params.index "resource_id" ≠ .str resource)
      "Grant resource must be exact and belong to its executor"
  | none => bailIf (o.params.get? "resource_id").isSome "Ungranted physical resource"
  if isModel o.capability then
    let model ← context o.modelId "Grant requires an exact model"
    ensure (model ≠ "" ∧ model.utf8ByteSize ≤ 256 ∧ isTrimmed model ∧ !(model.toList.any isControl))
      "model ID must contain 1-256 bytes without surrounding whitespace or control characters"
    let backend ← context o.backend "Grant requires an exact backend"
    bailIf ((backend ≠ "ollama" ∧ backend ≠ "llamacpp") ∨ o.resourceId.isSome
      ∨ o.params.index "model_id" ≠ .str model
      ∨ (o.params.get? "model").any (· ≠ .str model)
      ∨ (o.params.get? "backend").any (· ≠ .str backend)) "Conflicting granted model/backend"
    bailIf (o.modelRole.any (!identifier ·)) "Invalid model role"
  else
    bailIf (o.modelId.isSome ∨ o.backend.isSome ∨ o.modelRole.isSome)
      "Non-model operation cannot claim a model"

end

/-! ## Parameter contracts -/

/-- `request_planning::template_steps`. -/
def templateSteps (template : String) : Result (List (String × String × List String)) :=
  match template with
  | "system_info" => .ok [("system.info", "run", [])]
  | "continuous_workload" => .ok [("workload.session", "run", ["workload"])]
  | "local_pipeline" => .ok [("pipeline.run", "run", ["pipeline"])]
  | "conditional_pipeline" => .ok [("pipeline.when", "run", ["pipeline"])]
  | "peer_transfer" => .ok [("peer.transfer", "send", []), ("peer.transfer", "receive", [])]
  | "generate_text" =>
    .ok [("llm.infer", "run", ["prompt", "messages", "model_id", "tier", "max_tokens",
      "temperature"])]
  | "analyze_image" =>
    .ok [("vlm.analyze", "run", ["prompt", "messages", "images", "model_id", "tier", "max_tokens",
      "temperature"])]
  | "launch_application" => .ok [("application.control", "launch", ["application", "args"])]
  | "read_sensor" => .ok [("sensor", "read", ["name"])]
  | "write_file" => .ok [("filesystem", "write", ["path", "content"])]
  | "read_file" => .ok [("filesystem", "read", ["path"])]
  | "list_directory" => .ok [("filesystem", "list", ["path"])]
  | "type_text" => .ok [("input.control", "type", ["text", "interval"])]
  | "press_key" => .ok [("input.control", "press", ["key"])]
  | "capture_screen" => .ok [("screen.capture", "capture", [])]
  | "capture_camera" =>
    .ok [("camera.capture", "capture", ["device", "width", "height", "quality"])]
  | "record_audio" =>
    .ok [("audio.capture", "record", ["device", "duration_seconds", "sample_rate", "channels"])]
  | "play_audio" => .ok [("audio.play", "play", ["data_base64"])]
  | "speak_text" => .ok [("tts.speak", "speak", ["text", "voice", "rate", "volume"])]
  | "transcribe_audio" =>
    .ok [("stt.transcribe", "transcribe", ["audio_base64", "audio_path", "filename"])]
  | "execute_process" =>
    .ok [("process.exec", "run", ["program", "args", "cwd", "timeout_seconds"])]
  | "http_request" =>
    .ok [("http.request", "send", ["url", "method", "headers", "body", "timeout_seconds"])]
  | "wake_computer" => .ok [("network.wol", "wake", ["mac", "broadcast", "port"])]
  | "observe_room" =>
    .ok [("camera.capture", "capture", ["device"]), ("vlm.analyze", "analyze", ["prompt"])]
  | _ => .error s!"no template '{template}'"

/-- `request_planning::METHOD_TEMPLATES`. -/
def methodTemplates : List String :=
  ["system_info", "generate_text", "analyze_image", "launch_application", "read_sensor",
    "write_file", "read_file", "list_directory", "type_text", "press_key", "capture_screen",
    "capture_camera", "record_audio", "play_audio", "speak_text", "transcribe_audio",
    "execute_process", "http_request", "wake_computer"]

/-- The keys one template's steps license for an operation, if any does. -/
def templateKeys (capability action template : String) : Option (List String) :=
  match templateSteps template with
  | .error _ => none
  | .ok steps =>
    (steps.find? fun s => s.1 == capability
      && (s.2.1 == action || (capability == "vlm.analyze" && action == "analyze"))).map (·.2.2)

/-- `pipeline::parameter_keys`. -/
def parameterKeys (capability action : String) : Result (List String) :=
  match methodTemplates.findSome? (templateKeys capability action) with
  | some keys => .ok keys
  | none =>
    match capability, action with
    | "system.ping", "run" => .ok []
    | "input.control", "move" => .ok ["x", "y", "duration"]
    | "input.control", "click" => .ok ["x", "y", "button", "clicks"]
    | "input.control", "scroll" => .ok ["amount"]
    | _, _ => .error "No finite pipeline parameter contract for this operation"

/-- `pipeline::data_parameter`: the parameters that may carry earlier output. -/
def dataParameter (capability action key : String) : Bool :=
  match capability with
  | "llm.infer" => (action == "run" || action == "analyze") && key == "prompt"
  | "vlm.analyze" => (action == "run" || action == "analyze") && (key == "prompt" || key == "images")
  | "filesystem" => action == "write" && key == "content"
  | "http.request" => action == "send" && key == "body"
  | "stt.transcribe" => action == "transcribe" && key == "audio_base64"
  | "audio.play" => action == "play" && key == "data_base64"
  | "tts.speak" => action == "speak" && key == "text"
  | "input.control" => action == "type" && key == "text"
  | _ => false

/-- `pipeline::validate_data_type`. -/
def validateDataType (key : String) (value : Json) : Result Unit :=
  match key with
  | "body" => .ok ()
  | "images" =>
    match value with
    | .arr values =>
      bailIf (values = [] ∨ values.length > 8 ∨ values.any fun v => v.asStr.all (· == ""))
        "Invalid pipeline image data"
    | _ => .error "Pipeline images must be an array"
  | _ => ensure value.asStr.isSome "Pipeline data must be text"

/-- `interpretation::text_bound` at `MAX_INPUT_BYTES`, all that
`interpretation::messages` checks of a pipeline's literal text. -/
def textBound (text : String) : Result Unit :=
  ensure (text.toList.any (!isWhitespace ·) ∧ text.utf8ByteSize ≤ 32 * 1024
    ∧ !(text.toList.any fun c => isControl c && c != '\n' && c != '\r' && c != '\t'))
    "interpretation text is empty, oversized or contains unsupported controls"

section
variable [F64]

/-- `0.0 <= n && n <= 2.0`. -/
def temperatureInRange : Json → Bool
  | .num n =>
    let f := Json.Number.asF64 n
    (F64.cmp (F64.ofInt 0) f == some .lt || F64.cmp (F64.ofInt 0) f == some .eq)
      && (F64.cmp f (F64.ofInt 2) == some .lt || F64.cmp f (F64.ofInt 2) == some .eq)
  | _ => false

/-- One entry of a literal `messages` array. -/
def validateMessage (message : Json) : Result Unit := do
  match message with
  | .obj fields =>
    bailIf ((fields.any fun f => f.1 ≠ "role" ∧ f.1 ≠ "content")
      ∨ ¬(message.index "role" = .str "system" ∨ message.index "role" = .str "user"
        ∨ message.index "role" = .str "assistant")) "Unsupported pipeline message"
    let text ← context (message.index "content").asStr "Pipeline message content must be text"
    textBound text
  | _ => .error "Pipeline message must be an object"

/-- `pipeline::validate_model_literals`; `boundImages` says whether an input binds
the images. -/
def validateModelLiterals (params : Json) (vision boundImages : Bool) : Result Unit := do
  match params.get? "prompt" with
  | some prompt =>
    let text ← context prompt.asStr "Pipeline prompt must be text"
    textBound text
  | none => pure ()
  match params.get? "messages" with
  | some (.arr messages) =>
    bailIf (messages = [] ∨ messages.length > 64) "Pipeline messages exceed bounds"
    each validateMessage messages
  | some _ => throw "Pipeline messages must be an array"
  | none => pure ()
  match params.get? "images" with
  | some images => validateDataType "images" images
  | none => pure ()
  bailIf (vision = true ∧ (params.get? "images").isNone ∧ boundImages = false)
    "Pipeline vision step requires literal images or an earlier image binding"
  bailIf ((params.get? "temperature").any (!temperatureInRange ·)
    ∨ (params.get? "max_tokens").any fun v => (v.asUInt 64).all fun n => n == 0 || n > 32768)
    "Invalid pipeline model generation bounds"

end

end Eef.Node
