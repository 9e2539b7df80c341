import InferTwin.Config.Guard
import InferTwin.Request.Tiling
import InferTwin.Request.Tokenizers

namespace InferTwin

open Config Effect

/-- Context shared by all request builds in one simulation run. -/
structure RequestBuildContext where
  runSpec : Option RunSpec
  modelProfile : Option ModelProfile
  deploymentProfile : Option DeploymentProfile
  blockSizeResolution : BlockSizeResolution
  maxPromptTokens : Option ℕ := none

/-- `_deployment_max_model_len`, over the keys it tries. -/
def deploymentMaxModelLen (startupArgs : List (String × Json)) :
    List String → Except RequestBuildError (Option ℕ)
  | [] => .ok none
  | key :: keys =>
    match getOrNull startupArgs key with
    | .null => deploymentMaxModelLen startupArgs keys
    | .int value => if 0 < value then .ok (some value.toNat) else .error (.startupArgument key)
    | _ => .error (.startupArgument key)

/-- `_resolve_max_prompt_tokens`: the least of the limits that there are. -/
def resolveMaxPromptTokens (explicitMaxPromptTokens : Option ℕ) (modelProfile : ModelProfile)
    (deploymentProfile : DeploymentProfile) : Except RequestBuildError (Option ℕ) := do
  let deploymentLimit ← deploymentMaxModelLen deploymentProfile.startupArgs
    ["max_model_len", "max-model-len", "max_model_lens", "max-model-lens"]
  let limits := [explicitMaxPromptTokens, modelProfile.maxModelLen.map PNat.val, deploymentLimit]
  return (limits.filterMap id).min?

namespace RequestBuildContext

def legacy (blockSizeTokens : ℕ) (maxPromptTokens : Option ℕ := none) :
    Except RequestBuildError RequestBuildContext := do
  let resolution ← (BlockSizeInput.resolve { requestedBlockSize := blockSizeTokens }).mapError
    .blockSize
  return {
    runSpec := none
    modelProfile := none
    deploymentProfile := none
    blockSizeResolution := resolution
    maxPromptTokens }

def fromProfiles (runSpec : RunSpec) (modelProfile : ModelProfile)
    (deploymentProfile : DeploymentProfile) (maxPromptTokens : Option ℕ := none) :
    Except RequestBuildError RequestBuildContext := do
  let resolution ← (BlockSizeInput.resolve {
    requestedBlockSize := runSpec.requestedBlockSize
    runtimeBlockSize := deploymentProfile.cacheFeatures.runtimeBlockSize.map PNat.val
    prefillContextParallelSize := deploymentProfile.parallel.prefillContextParallelSize
    decodeContextParallelSize := deploymentProfile.parallel.decodeContextParallelSize
    cacheFamily := modelProfile.cacheFamily
    hybridGroupBlockSizes := modelProfile.cacheGroups.map fun group ↦ group.blockSize.val
  }).mapError .blockSize
  match resolution.unsupportedReason with
  | some reason => throw (.resolverRejected reason)
  | none => return {
      runSpec
      modelProfile
      deploymentProfile
      blockSizeResolution := resolution
      maxPromptTokens :=
        ← resolveMaxPromptTokens maxPromptTokens modelProfile deploymentProfile }

variable (context : RequestBuildContext)

def effectiveBlockSize : ℕ := context.blockSizeResolution.effectiveBlockSize

def speculativeDropBlocks : ℕ :=
  match context.deploymentProfile with
  | none => 0
  | some deployment => deployment.speculative.speculativeDropBlocks

def validateRequestModel (requestModel : String) : Except RequestBuildError Unit :=
  match context.runSpec, context.modelProfile with
  | some runSpec, some modelProfile =>
    (raiseIfBlocked (guardRequestModel runSpec modelProfile requestModel)).mapError .config
  | _, _ => .ok ()

def calculateBlockConversion (promptTokens : ℕ) :
    Except RequestBuildError CacheBlockConversionResult := do
  let result ← (CacheBlockConversionInput.calculate {
    promptTokens
    blockSize := context.blockSizeResolution
    speculativeDropBlocks := context.speculativeDropBlocks }).mapError .blockSize
  match result.unsupportedReason with
  | some reason => throw (.conversionRejected reason)
  | none => return result

end RequestBuildContext

/-- The settings that all rows of a build share. -/
structure RequestBuildSettings where
  tracePath : String
  tokenizerRegistry : TokenizerRegistry
  blockSizeTokens : ℕ
  cacheScope : String
  buildContext : RequestBuildContext

section Building

variable (sha256 : List UInt8 → List UInt8) (services : TokenizerServices)

def buildSimulationRequest (record : TraceRecord) (tokenizerRegistry : TokenizerRegistry)
    (blockSizeTokens : ℕ) (cacheScope : String) (buildContext : Option RequestBuildContext)
    (tokenizerProfile : Option String) : Except RequestBuildError SimulationRequest := do
  let context ← match buildContext with
    | some context => pure context
    | none => RequestBuildContext.legacy blockSizeTokens
  let parsed ← parseRequestParams services.loads record.requestParams
  context.validateRequestModel parsed.model
  let tokenization ← tokenizerRegistry.encode sha256 services parsed context.maxPromptTokens
    tokenizerProfile
  let blockConversion ← context.calculateBlockConversion tokenization.promptTokens
  let blocks ← (buildPrefixBlocks sha256 tokenization.promptTokenIds {
    blockSizeTokens := context.effectiveBlockSize
    model := parsed.model
    tenantId := record.tenantId
    kvBytesPerToken := tokenization.kvBytesPerToken
    cacheScope := CacheScope.ofString cacheScope }).mapError .hasher
  return {
    requestId := record.requestId
    tenantId := record.tenantId
    instanceUuid := record.instanceUuid
    model := parsed.model
    serviceStartTime := record.serviceStartTime
    startTimeMs := record.serviceStartTime.toMs
    tokenizerProfile := tokenization.tokenizerProfile
    promptTokens := tokenization.promptTokens
    promptBlocks := blocks
    kvBytesPerToken := tokenization.kvBytesPerToken
    requestedBlockSize := some context.blockSizeResolution.requestedBlockSize
    runtimeBlockSize := some context.blockSizeResolution.runtimeBlockSize
    effectiveBlockSize := some context.effectiveBlockSize
    blockConversionResult := some blockConversion }

end Building

end InferTwin
