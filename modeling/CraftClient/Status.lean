import Mathlib.Data.UInt

namespace CraftClient

inductive CraftError
  | staleTerm | notLeader | noQuorum | wrongToken | notEligible | replicaDown | internal | notImplemented
  deriving DecidableEq, Repr

inductive ErrorCond
  | craft (e : CraftError)
  | invalidArgument | timedOut | notConnected
  deriving DecidableEq, Repr

namespace Wire

def ok : UInt8 := 0
def staleTerm : UInt8 := 1
def notLeader : UInt8 := 2
def noQuorum : UInt8 := 3
def wrongToken : UInt8 := 4
def notEligible : UInt8 := 5
def replicaDown : UInt8 := 6
def invalidArgument : UInt8 := 7
def internal : UInt8 := 255

end Wire

def toWireStatus : ErrorCond → UInt8
  | .craft .staleTerm => Wire.staleTerm
  | .craft .notLeader => Wire.notLeader
  | .craft .noQuorum => Wire.noQuorum
  | .craft .wrongToken => Wire.wrongToken
  | .craft .notEligible => Wire.notEligible
  | .craft .replicaDown => Wire.replicaDown
  | .invalidArgument => Wire.invalidArgument
  | _ => Wire.internal

def statusToError (s : UInt8) : ErrorCond :=
  if s = Wire.staleTerm then .craft .staleTerm
  else if s = Wire.notLeader then .craft .notLeader
  else if s = Wire.noQuorum then .craft .noQuorum
  else if s = Wire.wrongToken then .craft .wrongToken
  else if s = Wire.notEligible then .craft .notEligible
  else if s = Wire.replicaDown then .craft .replicaDown
  else if s = Wire.invalidArgument then .invalidArgument
  else .craft .replicaDown

namespace Client

inductive NetError
  | setup | connect | send | recv | closed | malformed | invalidArgument | timedOut
  deriving DecidableEq, Repr

def netToError : NetError → ErrorCond
  | .send | .setup | .connect => .craft .replicaDown
  | .recv | .closed | .malformed | .timedOut => .timedOut
  | .invalidArgument => .invalidArgument

end Client

structure ClientHdr where
  term : UInt64
  commitLsn : ℤ
  allCommittedLsn : ℤ
  clientToken : UInt64
  deriving DecidableEq

structure LsnPair where
  commitLsn : ℤ
  lastAppendLsn : ℤ
  deriving DecidableEq

structure ResolutionResult where
  resolvedUpto : ℤ
  emptySlots : List ℤ
  deriving DecidableEq

end CraftClient
