import CraftClient.Replica.Journal
import CraftClient.Replica.Scatter

namespace CraftClient.Replica

variable {α : Type*} {r : MemReplica} {hdr : ClientHdr}

structure Fenced (r : MemReplica) (hdr : ClientHdr) (rep : α → MemReplica) (out : Except ErrorCond α) : Prop where
  ok : ∀ {x}, out = .ok x → hdr.term = r.term ∧ (rep x).term = r.term
  stale : out = .error (.craft .staleTerm) → hdr.term ≠ r.term

lemma Fenced.refused {e : ErrorCond} {rep : α → MemReplica} (he : e ≠ .craft .staleTerm) :
    Fenced r hdr rep (.error e) :=
  ⟨nofun, fun h => absurd (Except.error.inj h) he⟩

lemma Fenced.fenced {rep : α → MemReplica} (ht : hdr.term ≠ r.term) :
    Fenced r hdr rep (.error (.craft .staleTerm)) :=
  ⟨nofun, fun _ => ht⟩

lemma Fenced.served {rep : α → MemReplica} {x : α} (ht : ¬ hdr.term ≠ r.term) (hx : (rep x).term = r.term) :
    Fenced r hdr rep (.ok x) :=
  ⟨fun h => Except.ok.inj h ▸ ⟨not_not.mp ht, hx⟩, nofun⟩

namespace MemReplica

lemma fenced_doWrite (r : MemReplica) (hdr : ClientHdr) (dlsn : ℤ) (addr len : UInt64)
    (bytes : Option (List UInt8)) : Fenced r hdr Prod.snd (r.doWrite hdr dlsn addr len bytes) := by
  rw [doWrite]
  split_ifs with hm hb ht he
  · exact .refused (by decide)
  · exact .refused (by decide)
  · exact .fenced ht
  · exact .refused (by decide)
  · exact .served ht (applyUpTo_term _ _)

lemma fenced_doRead (r : MemReplica) (hdr : ClientHdr) (readLsn : ℤ) (addr len destSize : UInt64) :
    Fenced r hdr Prod.snd (r.doRead hdr readLsn addr len destSize) := by
  rw [doRead]
  split_ifs with hm hd ht
  · exact .refused (by decide)
  · exact .refused (by decide)
  · exact .fenced ht
  · exact .served ht (applyUpTo_term _ _)

lemma fenced_doReadInto (r : MemReplica) (hdr : ClientHdr) (readLsn : ℤ) (addr len : UInt64) (dest : SgList) :
    Fenced r hdr (fun x => x.2.2) (r.doReadInto hdr readLsn addr len dest) := by
  have hf := fenced_doRead r hdr readLsn addr len dest.size
  constructor
  · intro x h
    exact hf.ok (doReadInto_ok h).1
  · intro h
    apply hf.stale
    rw [doReadInto] at h
    cases hr : r.doRead hdr readLsn addr len dest.size with
    | error e =>
      rw [hr] at h
      cases h
      rfl
    | ok out =>
      rw [hr] at h
      cases h

lemma fenced_doKeepAlive (r : MemReplica) (hdr : ClientHdr) : Fenced r hdr Prod.snd (r.doKeepAlive hdr) := by
  rw [doKeepAlive]
  split_ifs with ht
  · exact .fenced ht
  · exact .served ht (applyUpTo_term _ _)

lemma fenced_doResolveLocal (r : MemReplica) (hdr : ClientHdr) (upto : ℤ) :
    Fenced r hdr Prod.snd (r.doResolveLocal hdr upto) := by
  rw [doResolveLocal]
  split_ifs with ht
  · exact .fenced ht
  · exact .served ht (applyUpTo_term _ _)

end MemReplica

lemma toWireStatus_eq_staleTerm {e : ErrorCond} (h : toWireStatus e = Wire.staleTerm) : e = .craft .staleTerm := by
  cases e with
  | craft c => cases c <;> first | rfl | exact absurd h (by decide)
  | _ => exact absurd h (by decide)

end CraftClient.Replica
