import Mathlib.Data.UInt
import Mathlib.Tactic

namespace CraftClient.Raft

inductive JsonValue
  | num (i : ℤ)
  | nums (is : List ℤ)
  deriving DecidableEq, Repr

abbrev Json := List (String × JsonValue)

inductive JsonError
  | outOfRange (key : String)
  | typeError
  | unknownOp (op : ℤ)
  deriving DecidableEq, Repr

def Json.atKey (j : Json) (key : String) : Except JsonError JsonValue :=
  match j.lookup key with
  | some v => .ok v
  | none => .error (.outOfRange key)

def JsonValue.getInt : JsonValue → Except JsonError ℤ
  | .num i => .ok i
  | .nums _ => .error .typeError

def JsonValue.getUInt64 (v : JsonValue) : Except JsonError UInt64 :=
  v.getInt.map fun i => .ofNat i.toNat

def JsonValue.getInts : JsonValue → Except JsonError (List ℤ)
  | .num _ => .error .typeError
  | .nums is => .ok is

inductive Operation
  | syncRSCommitLSN | internalLogin
  deriving DecidableEq, Repr

def Operation.toInt : Operation → ℤ
  | .syncRSCommitLSN => 0
  | .internalLogin => 1

structure SyncRSCommitLSNMsg where
  rsCommitLsn : ℤ := -1
  clientToken : UInt64 := 0
  emptySlots : List ℤ := []
  deriving DecidableEq, Repr

structure InternalLoginMsg where
  clientToken : UInt64 := 0
  term : UInt64 := 0
  rsCommitLsn : ℤ := -1
  deriving DecidableEq, Repr

def SyncRSCommitLSNMsg.toJson (m : SyncRSCommitLSNMsg) : Json :=
  [("op", .num Operation.syncRSCommitLSN.toInt),
    ("rs_commit_lsn", .num m.rsCommitLsn),
    ("client_token", .num m.clientToken.toNat),
    ("empty_slots", .nums m.emptySlots)]

def SyncRSCommitLSNMsg.fromJson (j : Json) : Except JsonError SyncRSCommitLSNMsg := do
  let rsCommitLsn ← (← j.atKey "rs_commit_lsn").getInt
  let clientToken ← (← j.atKey "client_token").getUInt64
  let emptySlots ← (← j.atKey "empty_slots").getInts
  return ⟨rsCommitLsn, clientToken, emptySlots⟩

def InternalLoginMsg.toJson (m : InternalLoginMsg) : Json :=
  [("op", .num Operation.internalLogin.toInt),
    ("client_token", .num m.clientToken.toNat),
    ("term", .num m.term.toNat)]

-- `rs_commit_lsn` keeps the default of the message that is filled in.
def InternalLoginMsg.fromJson (j : Json) : Except JsonError InternalLoginMsg := do
  let clientToken ← (← j.atKey "client_token").getUInt64
  let term ← (← j.atKey "term").getUInt64
  return { clientToken := clientToken, term := term }

inductive RaftMsg
  | sync (m : SyncRSCommitLSNMsg)
  | login (m : InternalLoginMsg)
  deriving DecidableEq, Repr

def RaftMsg.toJson : RaftMsg → Json
  | .sync m => m.toJson
  | .login m => m.toJson

def decodeEntry (j : Json) : Except JsonError RaftMsg := do
  let op ← (← j.atKey "op").getInt
  if op = Operation.syncRSCommitLSN.toInt then
    return .sync (← SyncRSCommitLSNMsg.fromJson j)
  else if op = Operation.internalLogin.toInt then
    return .login (← InternalLoginMsg.fromJson j)
  else .error (.unknownOp op)

lemma getUInt64_num (t : UInt64) : (JsonValue.num t.toNat).getUInt64 = .ok t := by
  simp [JsonValue.getUInt64, JsonValue.getInt, Except.map]

lemma decodeEntry_sync (m : SyncRSCommitLSNMsg) : decodeEntry m.toJson = .ok (.sync m) := by
  have ht := getUInt64_num m.clientToken
  simp [decodeEntry, SyncRSCommitLSNMsg.toJson, SyncRSCommitLSNMsg.fromJson, Json.atKey, List.lookup_cons, ht,
    JsonValue.getInt, JsonValue.getInts, bind, Except.bind, pure, Except.pure]

lemma decodeEntry_login (m : InternalLoginMsg) :
    decodeEntry m.toJson = .ok (.login { m with rsCommitLsn := -1 }) := by
  have ht := getUInt64_num m.clientToken
  have ht' := getUInt64_num m.term
  simp [decodeEntry, InternalLoginMsg.toJson, InternalLoginMsg.fromJson, Json.atKey, List.lookup_cons, ht, ht',
    JsonValue.getInt, Operation.toInt, bind, Except.bind, pure, Except.pure]

end CraftClient.Raft
