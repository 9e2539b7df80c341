import InferTwin.Request.SimulationRequest
import Mathlib.Algebra.Order.Group.Nat

namespace InferTwin

inductive BlockHasherError
  | nonPositiveBlockSize
  | unsupportedCacheScope (scope : String)
  | tokenOverflow
  | fieldTooLong
  deriving DecidableEq, Repr

/-- Who may share cached blocks; any other text is refused when a block is hashed. -/
inductive CacheScope
  | tenantIsolated | modelShared | other (text : String)
  deriving DecidableEq, Repr

def CacheScope.ofString (text : String) : CacheScope :=
  if text = "tenant_isolated" then tenantIsolated
  else if text = "model_shared" then modelShared
  else other text

/-- `value.to_bytes(width, "big")`, without its range check. -/
def bigEndian : ℕ → ℕ → List UInt8
  | 0, _ => []
  | width + 1, value => bigEndian width (value / 256) ++ [UInt8.ofNat (value % 256)]

/-- `value.to_bytes(width, "big")`. -/
def toBytes (width value : ℕ) : Option (List UInt8) :=
  if value < 256 ^ width then some (bigEndian width value) else none

def hexDigit (n : ℕ) : Char := "0123456789abcdef".toList.getD n '0'

/-- `bytes.hex()`. -/
def hex (bytes : List UInt8) : String :=
  String.ofList (bytes.flatMap fun byte ↦ [hexDigit (byte.toNat / 16), hexDigit (byte.toNat % 16)])

/-- A text preceded by its length in bytes. -/
def encodeField (value : String) : Except BlockHasherError (List UInt8) :=
  let encoded := value.toUTF8.toList
  match toBytes 4 encoded.length with
  | some length => .ok (length ++ encoded)
  | none => .error .fieldTooLong

section Hashing

-- the digest of SHA-256, over the bytes fed to it
variable (sha256 : List UInt8 → List UInt8)

def tokenBytes : List ℕ → Except BlockHasherError (List UInt8)
  | [] => .ok []
  | token :: tokens =>
    match toBytes 16 token with
    | some bytes => do return bytes ++ (← tokenBytes tokens)
    | none => .error .tokenOverflow

def contentHash (tokenIds : List ℕ) : Except BlockHasherError String := do
  return hex (sha256 (← tokenBytes tokenIds))

def chainHash (parent : List UInt8) (model tenantId : String) (cacheScope : CacheScope)
    (contentHash : String) : Except BlockHasherError (List UInt8) := do
  let model ← encodeField model
  let tenant ← match cacheScope with
    | .tenantIsolated => encodeField tenantId
    | .modelShared => .ok []
    | .other text => .error (.unsupportedCacheScope text)
  let content ← encodeField contentHash
  return sha256 (parent ++ model ++ tenant ++ content)

def noneHash : List UInt8 := sha256 "infertwin:none_hash:v1".toUTF8.toList

/-- What the blocks of one prompt have in common. -/
structure BlockSettings where
  blockSizeTokens : ℕ
  model : String
  tenantId : String
  kvBytesPerToken : Option ℕ := none
  cacheScope : CacheScope := .tenantIsolated

/-- The loop of `buildPrefixBlocks`: the tokens not hashed yet, in chunks of the block size. -/
def chainBlocks (settings : BlockSettings) (block_size_pos : 0 < settings.blockSizeTokens)
    (parent : List UInt8) (blockIndex : ℕ) (tokenIds : List ℕ) :
    Except BlockHasherError (List PrefixBlock) :=
  match tokenIds with
  | [] => .ok []
  | token :: tokens => do
    let blockTokens := (token :: tokens).take settings.blockSizeTokens
    let content ← contentHash sha256 blockTokens
    let key ← chainHash sha256 parent settings.model settings.tenantId settings.cacheScope content
    let rest ← chainBlocks settings block_size_pos key (blockIndex + 1)
      ((token :: tokens).drop settings.blockSizeTokens)
    return {
      blockKey := hex key
      contentHash := content
      blockIndex
      tokenCount := blockTokens.length
      sizeBytes := blockTokens.length * settings.kvBytesPerToken.getD 0 } :: rest
termination_by tokenIds.length
decreasing_by simp only [List.length_drop, List.length_cons]; omega

def buildPrefixBlocks (tokenIds : List ℕ) (settings : BlockSettings) :
    Except BlockHasherError (List PrefixBlock) :=
  if h : 0 < settings.blockSizeTokens then
    chainBlocks sha256 settings h (noneHash sha256) 0 tokenIds
  else .error .nonPositiveBlockSize

end Hashing

end InferTwin
