import InferTwin.Cache.CacheBlockConversion
import InferTwin.Config.Parsers
import InferTwin.Request.BlockHasher
import InferTwin.Streaming.Build

namespace InferTwin

open Effect

/-- The exceptions of a request build. Only the first one rejects a row; any other ends the
build. -/
inductive RequestBuildError
  | promptTooLong (error : PromptTooLongError)
  | params (fieldName requirement : String)
  | invalidJson (text : String)
  | unknownModel (model : String)
  | unknownTokenizerProfile (tokenizerProfile : String)
  | unsupportedTokenizer (tokenizerType profile : String)
  | resolverRejected (reason : String)
  | conversionRejected (reason : String)
  | startupArgument (key : String)
  | config (error : ConfigError)
  | blockSize (error : BlockSizeError)
  | hasher (error : BlockHasherError)
  | external (text : String)

def RequestBuildError.message : RequestBuildError → String
  | promptTooLong error => error.message
  | params fieldName requirement => "request_params" ++ fieldName ++ requirement
  | invalidJson text => text
  | unknownModel model =>
    "Unknown model " ++ reprText model ++ "; no tokenizer profile is configured"
  | unknownTokenizerProfile profile => "Unknown tokenizer profile " ++ reprText profile
  | unsupportedTokenizer tokenizerType profile =>
    "Unsupported tokenizer type " ++ reprText tokenizerType ++ " for profile " ++ reprText profile
  | resolverRejected reason => "BlockSizeResolver rejected profile combination: " ++ reason
  | conversionRejected reason => "Cache block conversion rejected profile combination: " ++ reason
  | startupArgument key => "deployment.startup_args." ++ key ++ " must be a positive integer"
  | config error => error.message
  | blockSize error => error.message
  | hasher .nonPositiveBlockSize => "block_size_tokens must be positive"
  | hasher (.unsupportedCacheScope scope) =>
    "Unsupported cache_scope " ++ reprText scope ++ "; expected tenant_isolated or model_shared"
  | hasher _ => "int too big to convert"
  | external text => text

/-- A message that has passed the parser, with the two fields that the parser asks for. -/
structure RequestMessage where
  fields : List (String × Json)
  role : String
  content : Json

structure ParsedRequest where
  model : String
  messages : List RequestMessage
  tools : List (List (String × Json))
  model_nonempty : model ≠ ""

section Parser

/-- `_validate_message`. -/
def validateMessage (message : Json) (index : ℕ) : Except RequestBuildError RequestMessage :=
  let fieldName := ".messages[" ++ toString index ++ "]"
  match message with
  | .object fields =>
    match Json.get fields "role" with
    | some (.str role) =>
      if role = "" then .error (.params (fieldName ++ ".role") " must be a non-empty string")
      else
        match Json.get fields "content" with
        | some content => .ok { fields, role, content }
        | none => .error (.params (fieldName ++ ".content") " is required")
    | _ => .error (.params (fieldName ++ ".role") " must be a non-empty string")
  | _ => .error (.params fieldName " must be an object")

/-- The loop over the messages. -/
def validateMessages : ℕ → List Json → Except RequestBuildError (List RequestMessage)
  | _, [] => .ok []
  | index, message :: messages => do
    let first ← validateMessage message index
    return first :: (← validateMessages (index + 1) messages)

/-- The loop over the tools. -/
def validateTools : ℕ → List Json → Except RequestBuildError (List (List (String × Json)))
  | _, [] => .ok []
  | index, .object fields :: tools => return fields :: (← validateTools (index + 1) tools)
  | index, _ :: _ => .error (.params (".tools[" ++ toString index ++ "]") " must be an object")

def parseRequestParams (loads : String → Except String Json) (rawJson : String) :
    Except RequestBuildError ParsedRequest := do
  match ← (loads rawJson).mapError .invalidJson with
  | .object payload =>
    match Json.get payload "model" with
    | some (.str model) =>
      if model_nonempty : model ≠ "" then
        match Json.get payload "messages" with
        | some (.list messages) =>
          let messages ← validateMessages 0 messages
          match (Json.get payload "tools").getD (.list []) with
          | .list tools =>
            return { model, messages, tools := ← validateTools 0 tools, model_nonempty }
          | _ => throw (.params ".tools" " must be a list")
        | _ => throw (.params ".messages" " must be a list")
      else throw (.params ".model" " must be a non-empty string")
    | _ => throw (.params ".model" " must be a non-empty string")
  | _ => throw (.params "" " must decode to a JSON object")

end Parser

structure TokenizerProfile where
  profile : String
  tokenizerType : String
  root : String
  tokenizerPath : String
  chatTemplatePath : Option String
  includeTools : Bool
  modelAliases : List String
  kvBytesPerToken : Option ℕ := none

/-- What the registry calls and this package does not hold: files, templates, and tokenizers of
other packages. -/
structure TokenizerServices where
  /-- `json.loads`. -/
  loads : String → Except String Json
  /-- `json.dumps`, with sorted keys. -/
  dumps : Json → String
  /-- The text of a file, if there is one. -/
  readText : String → Option String
  /-- `_render_jinja_template`. -/
  renderTemplate : String → ParsedRequest → Bool → Except String String
  /-- `_encode_hf`, after the tokenizer of the profile is loaded. -/
  encodeHf : TokenizerProfile → ParsedRequest → Except String (List ℕ)

/-- `text.split()`. -/
def splitWords (text : String) : List String :=
  ((text.toList.splitOnP isSpace).filter fun word ↦ !word.isEmpty).map String.ofList

/-- `int.from_bytes(value, "big")`. -/
def fromBytes (bytes : List UInt8) : ℕ :=
  bytes.foldl (fun value byte ↦ value * 256 + byte.toNat) 0

section Encoding

variable (sha256 : List UInt8 → List UInt8) (services : TokenizerServices)

/-- `SimpleWhitespaceTokenizer.encode_text`. -/
def encodeText (text : String) : List ℕ :=
  (splitWords text).map fun token ↦ fromBytes ((sha256 token.toUTF8.toList).take 8)

/-- Render a deterministic text prompt for simple-tokenizer tests and smoke runs. -/
def renderSimpleChatTemplate (request : ParsedRequest) (includeTools : Bool)
    (templatePath : Option String) : Except RequestBuildError String :=
  match templatePath.bind services.readText with
  | some template => (services.renderTemplate template request includeTools).mapError .external
  | none =>
    let turns := request.messages.map fun message ↦
      "<|" ++ message.role ++ "|>\n" ++ match message.content with
        | .str content => content
        | content => services.dumps content
    let tools := if includeTools ∧ request.tools ≠ [] then
      ["<|tools|>\n" ++ services.dumps (.list (request.tools.map Json.object))] else []
    .ok ("\n".intercalate (turns ++ tools ++ ["<|assistant|>"]))

/-- `_encode_with_profile`. -/
def encodeWithProfile (profile : TokenizerProfile) (request : ParsedRequest) :
    Except RequestBuildError (List ℕ) :=
  if profile.tokenizerType = "simple" then do
    let rendered ← renderSimpleChatTemplate services request profile.includeTools
      profile.chatTemplatePath
    return encodeText sha256 rendered
  else if profile.tokenizerType = "huggingface" then
    (services.encodeHf profile request).mapError .external
  else .error (.unsupportedTokenizer profile.tokenizerType profile.profile)

end Encoding

structure TokenizationResult where
  model : String
  tokenizerProfile : String
  promptTokenIds : List ℕ
  promptTokens : ℕ
  kvBytesPerToken : Option ℕ

/-- The profiles of a registry, each under its name, in the order in which they were found. -/
structure TokenizerRegistry where
  profiles : List TokenizerProfile
  defaultProfile : Option String := none
  distinct : (profiles.map TokenizerProfile.profile).Nodup

namespace TokenizerRegistry

variable (registry : TokenizerRegistry)

/-- A profile answers to its own name and to its aliases; a later one takes them over. -/
def aliases : Dict String String :=
  Dict.ofPairs (registry.profiles.flatMap fun profile ↦
    (profile.profile :: profile.modelAliases).map fun name ↦ (name, profile.profile))

/-- `ModelResolver.resolve`. -/
def resolveModel (model : String) : Except RequestBuildError String :=
  match registry.aliases.lookup model with
  | some profile => .ok profile
  | none =>
    match registry.defaultProfile with
    | some profile => .ok profile
    | none => .error (.unknownModel model)

/-- `_profile_for_name`. -/
def profileForName (name : String) : Except RequestBuildError TokenizerProfile :=
  match (Dict.byKey TokenizerProfile.profile registry.profiles).lookup name with
  | some profile => .ok profile
  | none => .error (.unknownTokenizerProfile name)

def resolveProfile (model : String) : Except RequestBuildError TokenizerProfile := do
  let name ← registry.resolveModel model
  match (Dict.byKey TokenizerProfile.profile registry.profiles).lookup name with
  | some profile => return profile
  | none => throw (.config (.keyError name))

variable (sha256 : List UInt8 → List UInt8) (services : TokenizerServices)

def encode (request : ParsedRequest) (maxPromptTokens : Option ℕ)
    (tokenizerProfile : Option String) : Except RequestBuildError TokenizationResult := do
  let profile ← match tokenizerProfile with
    | some name => registry.profileForName name
    | none => registry.resolveProfile request.model
  let tokenIds ← encodeWithProfile sha256 services profile request
  match maxPromptTokens with
  | some limit =>
    if tokenIds.length > limit then
      throw (.promptTooLong {
        model := request.model
        tokenizerProfile := profile.profile
        promptTokens := tokenIds.length
        maxPromptTokens := limit })
  | none => pure ()
  return {
    model := request.model
    tokenizerProfile := profile.profile
    promptTokenIds := tokenIds
    promptTokens := tokenIds.length
    kvBytesPerToken := profile.kvBytesPerToken }

end TokenizerRegistry

end InferTwin
