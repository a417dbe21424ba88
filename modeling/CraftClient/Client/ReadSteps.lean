import CraftClient.Client.ReadInvariant

namespace CraftClient.Client

open Replica Router Cluster Tracker

variable {ι κ ρ : Type} {n : ℕ} {L : ℤ} {P : UInt32} {base : UInt64 → Block}
  {s s' : Session ι κ ρ n} {d C : ℤ} {m : Fin n} {i : ι} {k : κ}

section Legs

lemma LegOk.leg {rs : RouteSlot n} {l : WriteLeg} {leg : Leg} {a : LegAct} (h : LegOk s d m rs l)
    (ha : legStep .mem l.leg a = some leg) : LegOk s d m rs { l with leg := leg } := by
  obtain ⟨hreq, hseen⟩ := legStep_mem ha
  refine ⟨fun p hp => h.served p ((hreq p).mp hp), fun p hp => ?_, h.waiting, fun hst => ?_⟩
  · rw [hreq]
    rcases hseen with hs | ⟨-, hs⟩
    · exact h.seen p (hs ▸ hp)
    · exact hs p hp
  · obtain ⟨hne, hack⟩ := h.recorded hst
    rcases hseen with hs | ⟨hs, -⟩
    · rw [hs]
      exact ⟨hne, hack⟩
    · exact absurd hs hne

lemma WriteOk.setLeg {w : WriteCall n} {rs : RouteSlot n} {l : WriteLeg} (h : WriteOk s P d w rs)
    (hl : LegOk s d m rs l) : WriteOk s P d (w.setLeg m l) rs :=
  { h with
    legs := fun q => by
      simp only [WriteCall.setLeg, Function.update_apply]
      split_ifs with hq
      · exact hq ▸ hl
      · exact h.legs q }

lemma WriteOk.quorate {w : WriteCall n} {rs : RouteSlot n} (h : WriteOk s P d w rs)
    (ho : writeOutcome w.seen = some .acked) : rs.Quorate := by
  have hq : quorum n ≤ (Finset.univ.filter fun i => (w.seen i).any Except.isOk).card := by
    by_contra hq
    simp only [writeOutcome, if_neg hq] at ho
    split_ifs at ho <;> cases ho
  apply hq.trans
  apply Finset.card_le_card
  intro m hm
  obtain ⟨res, hres, hack⟩ := (Option.any_eq_true _ _).mp (Finset.mem_filter.mp hm).2
  rw [WriteCall.seen] at hres
  split_ifs at hres with hst
  cases res with
  | error => cases hack
  | ok p =>
    refine ((h.legs m).recorded ?_).2 p hres
    rw [hst]
    nofun

lemma Grows.setWrite {w : WriteCall n} (hreq : ∀ w', s.writes d = some w' → w.req = w'.req) :
    Grows s (s.setWrite d w) := by
  refine ⟨.refl _, rfl, fun _ => rfl, fun _ => le_rfl, fun _ _ => id, fun e w' hw' => ?_⟩
  simp only [Session.setWrite, Function.update_apply]
  split_ifs with he
  · exact ⟨w, rfl, hreq w' (he ▸ hw')⟩
  · exact ⟨w', hw', rfl⟩

end Legs

section Frames

variable [NeZero n]

lemma SessInv.acks {rd : PlanRead} (h : SessInv L P base s) (hk : s.plan.reads k = some rd) :
    ∀ a ∈ rd.startAcks, (s.trk.tracker.data a).isSome :=
  (h.plan.reads k rd hk).call.acks_isSome

lemma SessInv.reads_mono (h : SessInv L P base s) (hg : Grows s s') (hr : s'.reads = s.reads)
    (hc : ∀ k rd', s'.plan.reads k = some rd' →
      ∃ rd, s.plan.reads k = some rd ∧ rd.toPlanCall = rd'.toPlanCall) :
    ∀ k c rd, s'.reads k = some c → s'.plan.reads k = some rd →
      rd.len.toNat / P.toNat < 2 ^ 32 ∧ PcOk s' L P base rd.toPlanCall c.pc := by
  intro k c rd' hk hrd'
  obtain ⟨rd, hrd, hcall⟩ := hc k rd' hrd'
  obtain ⟨hlen, hpc⟩ := h.reads k c rd (hr ▸ hk) hrd
  rw [← hcall]
  exact ⟨hlen, hpc.mono hg (h.acks hrd)⟩

lemma SessInv.setPlan {plan : PlanSys ι κ} {resolved : Finset ℤ} {reads : κ → Option (ClientRead n)}
    (h : SessInv L P base s) (hs : s' = { s with plan := plan, resolved := resolved, reads := reads })
    (hp : PlanInv L plan) (ht : Evolves s.trk plan.sys.trk) (ho : OnceInv s.Quorate resolved plan.sys)
    (hr : Grows s s' → ∀ k c rd, s'.reads k = some c → s'.plan.reads k = some rd →
      rd.len.toNat / P.toNat < 2 ^ 32 ∧ PcOk s' L P base rd.toPlanCall c.pc) :
    SessInv L P base s' := by
  subst hs
  have hg : Grows s { s with plan := plan, resolved := resolved, reads := reads } :=
    .of_tracker ht rfl rfl rfl
  exact
    { plan := hp
      lbaSize := ht.lbaSize.trans h.lbaSize
      idle := h.idle
      route := h.route
      slots := fun d rs hrs => by
        obtain ⟨sl, hsl, ha, hl⟩ := h.slots d rs hrs
        obtain ⟨sl', hsl', ha', hl', -⟩ := ht.slot d sl hsl
        exact ⟨sl', hsl', ha'.trans ha, hl'.trans hl⟩
      unissued := h.unissued
      once := ho
      synced := h.synced
      beats := h.beats
      members := fun m hm => (h.members m hm).mono hg
      writes := fun d w hw => by
        obtain ⟨rs, hok⟩ := h.writes d w hw
        exact ⟨rs, hok.mono hg hok.slot⟩
      reads := hr hg }

lemma SessInv.setRoute {route : RouteMap n} (h : SessInv L P base s) (hi : RouteInv L s.holds route)
    (hd : ∀ d rs, s.route.overlay.data d = some rs → route.overlay.data d = some rs)
    (hnew : ∀ d rs, route.overlay.data d = some rs → s.route.overlay.data d = some rs ∨ rs.completed = ∅ ∧
      ∃ sl, s.trk.tracker.data d = some sl ∧ sl.addr = rs.addr ∧ sl.len = rs.len)
    (hs : ∀ m, route.synced m ≤ (s.net.members m).commitLsn) :
    SessInv L P base { s with route := route } := by
  have hg : Grows s { s with route := route } := .of_tracker (.refl _) rfl rfl rfl
  exact
    { plan := h.plan
      lbaSize := h.lbaSize
      idle := h.idle
      route := hi
      slots := fun d rs hrs => (hnew d rs hrs).elim (h.slots d rs) And.right
      unissued := fun d rs hrs hw => (hnew d rs hrs).elim (fun hrs => h.unissued d rs hrs hw) And.left
      once := h.once.mono fun d ⟨rs, hrs, hq⟩ => ⟨rs, hd d rs hrs, hq⟩
      synced := hs
      beats := h.beats
      members := fun m hm => (h.members m hm).mono hg
      writes := fun d w hw => by
        obtain ⟨rs, hok⟩ := h.writes d w hw
        exact ⟨rs, hok.mono hg (hd d rs hok.slot)⟩
      reads := h.reads_mono hg rfl fun k rd hrd => ⟨rd, hrd, rfl⟩ }

lemma SessInv.setMember {r : MemReplica} (h : SessInv L P base s)
    (hok : r.term = s.term → MemberOk s L P base r) (hterm : r.term = (s.net.members m).term)
    (hc : (s.net.members m).commitLsn ≤ r.commitLsn)
    (hj : ∀ d, ((s.net.members m).journal.find d).isSome → (r.journal.find d).isSome) :
    SessInv L P base (s.setMember m r) ∧ Grows s (s.setMember m r) := by
  have hm : ∀ q, ((s.setMember m r).net.members q) = if q = m then r else s.net.members q :=
    fun q => Function.update_apply ..
  have hg : Grows s (s.setMember m r) := by
    refine ⟨.refl _, rfl, fun q => ?_, fun q => ?_, fun q d => ?_, fun d w hw => ⟨w, hw, rfl⟩⟩
    · rw [hm]
      split_ifs with hq
      · rw [hterm, hq]
      · rfl
    · rw [hm]
      split_ifs with hq
      · exact hq ▸ hc
      · exact le_rfl
    · rw [Session.holds, Session.holds, hm]
      split_ifs with hq
      · exact hq ▸ hj d
      · exact id
  refine ⟨?_, hg⟩
  exact
    { plan := h.plan
      lbaSize := h.lbaSize
      idle := h.idle
      route := h.route.mono hg.holds
      slots := h.slots
      unissued := h.unissued
      once := h.once
      synced := fun q => (h.synced q).trans (hg.commit q)
      beats := fun q C hC => (h.beats q C hC).mono hg
      members := fun q hq => by
        rw [hm] at hq ⊢
        split_ifs at hq ⊢
        · exact (hok hq).mono hg
        · exact (h.members q hq).mono hg
      writes := fun d w hw => by
        obtain ⟨rs, hok⟩ := h.writes d w hw
        exact ⟨rs, hok.mono hg hok.slot⟩
      reads := h.reads_mono hg rfl fun k rd hrd => ⟨rd, hrd, rfl⟩ }

lemma SessInv.setWriteRoute {w : WriteCall n} {route : RouteMap n} (h : SessInv L P base s) (rs : RouteSlot n)
    (hi : RouteInv L s.holds route) (hs : route.synced = s.route.synced)
    (hreq : ∀ w', s.writes d = some w' → w.req = w'.req)
    (hd : ∀ e, e ≠ d → route.overlay.data e = s.route.overlay.data e)
    (hslot : ∃ sl, s.trk.tracker.data d = some sl ∧ sl.addr = rs.addr ∧ sl.len = rs.len)
    (hq : ∀ rs', s.route.overlay.data d = some rs' → rs'.Quorate → rs.Quorate)
    (hok : WriteOk { s with route := route } P d w rs) :
    SessInv L P base { s.setWrite d w with route := route } := by
  have hg : Grows s { s.setWrite d w with route := route } := by
    have hg := Grows.setWrite (d := d) hreq
    exact ⟨hg.trk, hg.term, hg.memberTerm, hg.commit, hg.holds, hg.writes⟩
  have hrs := hok.slot
  exact
    { plan := h.plan
      lbaSize := h.lbaSize
      idle := h.idle
      route := hi
      slots := fun e rs' hrs' => by
        by_cases he : e = d
        · subst he
          obtain rfl : rs' = rs := Option.some.inj (hrs'.symm.trans hrs)
          exact hslot
        · exact h.slots e rs' ((hd e he).symm.trans hrs')
      unissued := fun e rs' hrs' hw' => by
        simp only [Session.setWrite, Function.update_apply] at hw'
        split_ifs at hw' with he
        exact h.unissued e rs' ((hd e he).symm.trans hrs') hw'
      once := h.once.mono fun e ⟨rs', hrs', hqe⟩ => by
        by_cases he : e = d
        · subst he
          exact ⟨rs, hrs, hq rs' hrs' hqe⟩
        · exact ⟨rs', (hd e he).trans hrs', hqe⟩
      synced := fun m => by
        change route.synced m ≤ _
        rw [hs]
        exact h.synced m
      beats := h.beats
      members := fun m hm => (h.members m hm).mono hg
      writes := fun e w' hw' => by
        simp only [Session.setWrite, Function.update_apply] at hw'
        split_ifs at hw' with he
        · cases hw'
          subst he
          exact ⟨rs, { hok with legs := fun m => { hok.legs m with } }⟩
        · obtain ⟨rs', hok'⟩ := h.writes e w' hw'
          exact ⟨rs', hok'.mono hg ((hd e he).trans hok'.slot)⟩
      reads := h.reads_mono hg rfl fun k rd hrd => ⟨rd, hrd, rfl⟩ }

lemma SessInv.setWrite {w : WriteCall n} (h : SessInv L P base s) (rs : RouteSlot n)
    (hok : WriteOk s P d w rs) (hreq : ∀ w', s.writes d = some w' → w.req = w'.req) :
    SessInv L P base (s.setWrite d w) := by
  apply h.setWriteRoute rs h.route rfl hreq (fun _ _ => rfl) (h.slots d rs hok.slot) _ hok
  intro rs' hrs'
  rw [Option.some.inj (hok.slot.symm.trans hrs')]
  exact id

lemma SessInv.setNet {net : MemTransport ρ n} {beats : Fin n → List ℤ} (h : SessInv L P base s)
    (hm : net.members = s.net.members) (hr : net.rounds = s.net.rounds)
    (hb : ∀ m, ∀ C ∈ beats m, s.Reported m C) : SessInv L P base { s with net := net, beats := beats } := by
  have hholds : ({ s with net := net, beats := beats } : Session ι κ ρ n).holds = s.holds := by
    funext m d
    simp only [Session.holds, hm]
  have hg : Grows s { s with net := net, beats := beats } := by
    refine ⟨.refl _, rfl, fun m => ?_, fun m => ?_, fun m d => ?_, fun d w hw => ⟨w, hw, rfl⟩⟩
    · simp only [hm]
    · simp only [hm, le_refl]
    · rw [hholds]
      exact id
  exact
    { plan := h.plan
      lbaSize := h.lbaSize
      idle := fun j => (congrFun hr j).trans (h.idle j)
      route := hholds ▸ h.route
      slots := h.slots
      unissued := h.unissued
      once := h.once
      synced := fun m => (h.synced m).trans (hg.commit m)
      beats := fun m C hC => (hb m C hC).mono hg
      members := fun m => by
        simp only [hm]
        exact fun hterm => (h.members m hterm).mono hg
      writes := fun d w hw => by
        obtain ⟨rs, hok⟩ := h.writes d w hw
        exact ⟨rs, hok.mono hg hok.slot⟩
      reads := h.reads_mono hg rfl fun k rd hrd => ⟨rd, hrd, rfl⟩ }

lemma SessInv.setRead [DecidableEq κ] {c : ClientRead n} {pc : ReadPc n} (h : SessInv L P base s)
    (hk : s.reads k = some c)
    (hpc : ∀ rd, s.plan.reads k = some rd → PcOk s L P base rd.toPlanCall pc) :
    SessInv L P base (s.setRead k c pc) := by
  have hg : Grows s (s.setRead k c pc) := .of_tracker (.refl _) rfl rfl rfl
  exact
    { plan := h.plan
      lbaSize := h.lbaSize
      idle := h.idle
      route := h.route
      slots := h.slots
      unissued := h.unissued
      once := h.once
      synced := h.synced
      beats := h.beats
      members := fun m hm => (h.members m hm).mono hg
      writes := fun d w hw => by
        obtain ⟨rs, hok⟩ := h.writes d w hw
        exact ⟨rs, hok.mono hg hok.slot⟩
      reads := fun j c' rd hj hrd => by
        simp only [Session.setRead, Function.update_apply] at hj
        split_ifs at hj with hjk
        · cases hj
          subst hjk
          exact ⟨(h.reads j c rd hk hrd).1, (hpc rd hrd).mono hg (h.acks hrd)⟩
        · obtain ⟨hlen, hok⟩ := h.reads j c' rd hj hrd
          exact ⟨hlen, hok.mono hg (h.acks hrd)⟩ }

lemma SessInv.setLeg {w : WriteCall n} {rs : RouteSlot n} {l : WriteLeg} (h : SessInv L P base s)
    (hw : s.writes d = some w) (hok : WriteOk s P d w rs) (hl : LegOk s d m rs l) :
    SessInv L P base (s.setWrite d (w.setLeg m l)) := by
  apply h.setWrite rs (hok.setLeg hl)
  intro w' hw'
  obtain rfl : w = w' := Option.some.inj (hw.symm.trans hw')
  rfl

end Frames

section Members

variable [NeZero n]

lemma SessInv.memberOk_doWrite {w : WriteCall n} {p : LsnPair} {r : MemReplica} (h : SessInv L P base s)
    (hw : s.writes d = some w)
    (hr : (s.net.members m).doWrite w.req.hdr w.req.dlsn w.req.addr w.req.len w.req.bytes = .ok (p, r)) :
    (s.net.members m).term = s.term ∧ MemberOk s L P base r ∧ (r.journal.find d).isSome := by
  obtain ⟨rs, hok⟩ := h.writes d w hw
  obtain ⟨sl, hsl, hal, hll⟩ := h.slots d rs hok.slot
  obtain ⟨-, hterm, -, hr', -⟩ := MemReplica.doWrite_ok hr
  rw [hok.dlsn] at hr'
  have hst : (s.net.members m).term = s.term := hterm.symm.trans hok.term
  have hm := h.members m hst
  have hL : L < d := h.route.login_lt d rs hok.slot
  have hrange : RangeOk P.toUInt64 w.req.addr w.req.len := by
    have hg := h.plan.geometry d sl hsl
    change RangeOk s.trk.lbaSize sl.addr sl.len at hg
    rwa [h.lbaSize, hal, hll, hok.addr, hok.len] at hg
  have hfits := w.req.slot_fits hrange hok.blocks (MemReplica.doWrite_length hr)
  rw [WriteReq.writeSlot_eq hm.pageSize] at hr'
  have hfind : ∀ e, r.journal.find e =
      if e = d then some (w.req.slot P) else (s.net.members m).journal.find e := by
    intro e
    rw [hr', MemReplica.applyUpTo_journal, MemReplica.find_append]
  refine ⟨hst, ⟨?_, ?_, fun e sl' hLe hsl' => ?_, ?_⟩, by rw [hfind, if_pos rfl]; rfl⟩
  · rw [hr', (MemReplica.applies_applyUpTo _ _).pageSize]
    exact hm.pageSize
  · rw [hr']
    apply Replays.applyUpTo
    apply hm.replays.append hL (by rwa [hm.pageSize])
    intro s' hs'
    obtain ⟨w', hw', rfl⟩ := hm.journal d s' hL hs'
    rw [Option.some.inj (hw'.symm.trans hw)]
  · rw [hfind] at hsl'
    split_ifs at hsl' with he
    · exact ⟨w, he ▸ hw, (Option.some.inj hsl').symm⟩
    · exact hm.journal e sl' hLe hsl'
  · rw [hr']
    exact (MemReplica.applyUpTo_commit_le _ _).trans (max_le hm.commit_le hok.commit)

lemma SessInv.applyUpTo (h : SessInv L P base s) (hC : C ≤ s.trk.frontier) :
    SessInv L P base (s.setMember m ((s.net.members m).applyUpTo C)) ∧
      Grows s (s.setMember m ((s.net.members m).applyUpTo C)) := by
  have ha := MemReplica.applies_applyUpTo (s.net.members m) C
  refine h.setMember (fun hterm => ?_) ha.term ha.commit_le fun d => by rw [ha.journal]; exact id
  have hm := h.members m (ha.term.symm.trans hterm)
  refine ⟨ha.pageSize.trans hm.pageSize, hm.replays.applyUpTo C, ?_, ?_⟩
  · rw [ha.journal]
    exact hm.journal
  · exact (MemReplica.applyUpTo_commit_le _ _).trans (max_le hm.commit_le hC)

lemma SessInv.advanceSynced (h : SessInv L P base s) (hC : s.Reported m C) :
    SessInv L P base { s with route := s.route.advanceSynced m C } := by
  have hd := congrArg StreamTracker.data (s.route.advanceSynced_overlay m C)
  apply h.setRoute
  · apply h.route.advanceSynced
    intro d rs hrs hle
    exact (h.members m hC.1).replays.present d (h.route.login_lt d rs hrs) (hle.trans hC.2)
  · intro d rs hrs
    rwa [hd]
  · intro d rs hrs
    exact Or.inl (hd ▸ hrs)
  · exact RouteMap.advanceSynced_synced_le h.synced hC.2

lemma SessInv.foldTo (h : SessInv L P base s) (F : ℤ) :
    SessInv L P base { s with route := s.route.foldTo F } := by
  apply h.setRoute (h.route.foldTo F)
  · intro d rs hrs
    rwa [RouteMap.foldTo_data]
  · intro d rs hrs
    rw [RouteMap.foldTo_data] at hrs
    exact Or.inl hrs
  · rw [RouteMap.foldTo_synced]
    exact h.synced

end Members

section Steps

variable [NeZero n] [DecidableEq ι] [Fintype ι] [DecidableEq κ] [Fintype κ] [DecidableEq ρ]

omit [NeZero n] [DecidableEq ι] [Fintype ι] [DecidableEq κ] [Fintype κ] [DecidableEq ρ] in
lemma Session.rangeOk_of_precheck {addr len : UInt64} (h : s.precheck addr len = true)
    (he : addr.toNat + len.toNat < 2 ^ 64) : RangeOk s.trk.lbaSize addr len := by
  simp only [precheck, Bool.and_eq_true, decide_eq_true_eq, ne_eq] at h
  obtain ⟨⟨⟨-, hlen⟩, ha⟩, hl⟩ := h
  refine ⟨?_, ?_, ?_, he⟩
  · apply Nat.pos_of_ne_zero
    exact fun h0 => hlen (UInt64.toNat_inj.mp h0)
  · apply Nat.dvd_of_mod_eq_zero
    rw [← UInt64.toNat_mod, ha]
    rfl
  · apply Nat.dvd_of_mod_eq_zero
    rw [← UInt64.toNat_mod, hl]
    rfl

omit [DecidableEq ρ] in
lemma SessInv.tracker {plan : PlanSys ι κ} {resolved : Finset ℤ} {a : Act ι} (hL : -1 ≤ L)
    (h : SessInv L P base s) (hp : planSysStep s.plan (.write a) = some plan)
    (hok : (PlanAct.write a).Ok s.plan)
    (ho : ∀ busy sys, Tracker.step busy s.plan.sys a = some sys → OnceInv s.Quorate resolved sys) :
    SessInv L P base { s with plan := plan, resolved := resolved } := by
  have hplan := h.plan.step hL hok hp
  have ht := h.plan.evolves hok hp
  obtain ⟨sys, hsys, rfl⟩ := Option.map_eq_some_iff.mp hp
  refine h.setPlan (by rfl) hplan ht (ho _ sys hsys) ?_
  exact fun hg => h.reads_mono hg rfl fun k rd hrd => ⟨rd, hrd, rfl⟩

lemma SessInv.reserve {addr len : UInt64} (hL : -1 ≤ L) (h : SessInv L P base s)
    (he : addr.toNat + len.toNat < 2 ^ 64) (hs : sessStep s (.reserve i addr len) = some s') :
    SessInv L P base s' := by
  simp only [sessStep] at hs
  split_ifs at hs with hpre
  obtain ⟨plan, hp, rfl⟩ := Session.tracks_some hs
  exact h.tracker hL hp (Session.rangeOk_of_precheck hpre he) fun _ _ hsys => h.once.reserve hsys

lemma SessInv.go {weak : Bool} (hL : -1 ≤ L) (h : SessInv L P base s)
    (hs : sessStep s (.go i weak) = some s') : SessInv L P base s' := by
  obtain ⟨s₁, ht, rfl⟩ := Option.map_eq_some_iff.mp hs
  obtain ⟨plan, hp, rfl⟩ := Session.tracks_some ht
  have hone := h.once.threads i
  have hfill : filling (s.plan.sys.threads i) = none := by
    cases hth : s.plan.sys.threads i with
    | retireFill =>
      rw [hth] at hone
      exact hone.elim
    | _ => rfl
  rw [hfill]
  exact h.tracker hL hp ⟨hone.storesFresh, hone.raisesFirst⟩ fun _ _ hsys => h.once.go hsys

lemma SessInv.resolve (hL : -1 ≤ L) (h : SessInv L P base s) (hs : sessStep s (.resolve i d) = some s') :
    SessInv L P base s' := by
  obtain ⟨w, oc, plan, hw, hd, hoc, hp, rfl⟩ := sessStep_resolve hs
  obtain ⟨rs, hok⟩ := h.writes d w hw
  refine h.tracker hL hp trivial fun _ _ hsys => h.once.resolve hd ?_ hsys
  rintro rfl
  exact ⟨rs, hok.slot, hok.quorate hoc⟩

lemma SessInv.create (h : SessInv L P base s) (hs : sessStep s (.create d) = some s') :
    SessInv L P base s' := by
  obtain ⟨hlt, hnone, sl, hsl, rfl⟩ := sessStep_create hs
  apply h.setRoute
  · exact h.route.create (h.route.login ▸ hlt) hnone (h.plan.geometry d sl hsl).end_lt
  · intro e rs hrs
    have hne : e ≠ d := by
      rintro rfl
      rw [hnone] at hrs
      cases hrs
    simpa [RouteMap.create, hne] using hrs
  · intro e rs hrs
    simp only [RouteMap.create, StreamTracker.create_data] at hrs
    split_ifs at hrs with he
    · cases hrs
      exact Or.inr ⟨rfl, sl, he ▸ hsl, rfl, rfl⟩
    · exact Or.inl hrs
  · exact h.synced

lemma SessInv.issue {bytes : Option (List UInt8)} (h : SessInv L P base s)
    (hb : ∀ rs, s.route.overlay.data d = some rs → rs.len.toNat / s.trk.lbaSize.toNat < 2 ^ 32)
    (hs : sessStep s (.issue d bytes) = some s') : SessInv L P base s' := by
  obtain ⟨hnone, rs, hrs, rfl⟩ := sessStep_issue hs
  have hb := hb rs hrs
  rw [h.lbaSize, UInt32.toNat_toUInt64] at hb
  refine h.setWrite rs ⟨hrs, rfl, rfl, rfl, rfl, le_rfl, hb, fun m => ?_⟩ fun w' hw' => ?_
  · refine ⟨nofun, nofun, fun _ => ?_, fun hst => absurd rfl hst⟩
    rw [h.unissued d rs hrs hnone]
    exact Finset.notMem_empty m
  · rw [hnone] at hw'
    cases hw'

lemma SessInv.leg {a : LegAct} (h : SessInv L P base s) (hs : sessStep s (.leg d m a) = some s') :
    SessInv L P base s' := by
  obtain ⟨w, leg, hw, hl, rfl⟩ := sessStep_leg hs
  obtain ⟨rs, hok⟩ := h.writes d w hw
  exact h.setLeg hw hok ((hok.legs m).leg hl)

lemma SessInv.deliver (h : SessInv L P base s) (hs : sessStep s (.deliver d m) = some s') :
    SessInv L P base s' := by
  obtain ⟨w, hw, hreq, rfl⟩ := sessStep_deliver hs
  obtain ⟨rs, hok⟩ := h.writes d w hw
  -- the leg has not seen an ack: its request was still on its way
  have hseen : ∀ p, (w.legs m).leg.seen ≠ some (.ok p) := by
    intro p hp
    rw [(hok.legs m).seen p hp] at hreq
    cases hreq
  simp only [Session.deliver]
  split
  case h_1 p r hr =>
    obtain ⟨hterm, hmem, hfind⟩ := h.memberOk_doWrite hw hr
    obtain ⟨-, -, -, hr', hp⟩ := MemReplica.doWrite_ok hr
    have happ := MemReplica.applies_applyUpTo
      ((s.net.members m).append w.req.dlsn
        ((s.net.members m).writeSlot w.req.hdr w.req.addr w.req.len w.req.bytes)) w.req.hdr.commitLsn
    rw [← hr'] at happ
    have hkeep : ∀ e, ((s.net.members m).journal.find e).isSome → (r.journal.find e).isSome := by
      intro e he
      rw [happ.journal, MemReplica.find_append]
      split_ifs
      · rfl
      · exact he
    obtain ⟨h', hg⟩ := h.setMember (fun _ => hmem) happ.term happ.commit_le hkeep
    rw [hr]
    have hok' := hok.mono hg hok.slot
    refine h'.setLeg hw hok' { hok'.legs m with served := ?_, seen := fun p' hp' => absurd hp' (hseen p') }
    rintro p' ⟨⟩
    have hmr : (s.setMember m r).net.members m = r := Function.update_self ..
    rw [Session.holds, Session.Reported, hmr]
    exact ⟨hfind, happ.term.trans hterm, by rw [hp]; exact le_rfl⟩
  case h_2 e hr =>
    rw [hr]
    refine h.setLeg hw hok { hok.legs m with served := ?_, seen := fun p hp => absurd hp (hseen p) }
    rintro p ⟨⟩

lemma SessInv.record (h : SessInv L P base s) (hs : sessStep s (.record d m) = some s') :
    SessInv L P base s' := by
  obtain ⟨w, res, hw, hst, hseen, rfl⟩ := sessStep_record hs
  obtain ⟨rs, hok⟩ := h.writes d w hw
  have hopen := (hok.legs m).waiting hst
  have hdata : ∀ e, (s.route.recordCompletion d m res.isOk).overlay.data e =
      if e = d then some (rs.answer m res.isOk) else s.route.overlay.data e :=
    RouteMap.recordCompletion_data (h.route.find_of_open hok.slot hopen)
  have hsub : rs.holders ⊆ (rs.answer m res.isOk).holders := by
    simp only [RouteSlot.answer]
    split_ifs
    · exact Finset.subset_insert _ _
    · exact subset_rfl
  apply h.setWriteRoute (rs.answer m res.isOk)
  · apply h.route.recordCompletion hok.slot hopen
    intro hack
    cases res with
    | error => cases hack
    | ok p => exact ((hok.legs m).served p ((hok.legs m).seen p hseen)).1
  · exact RouteMap.recordCompletion_synced _ _ _ _
  · intro w' hw'
    obtain rfl : w = w' := Option.some.inj (hw.symm.trans hw')
    rfl
  · intro e he
    rw [hdata, if_neg he]
  · exact h.slots d rs hok.slot
  · intro rs' hrs' hq
    obtain rfl : rs = rs' := Option.some.inj (hok.slot.symm.trans hrs')
    exact le_trans hq (Finset.card_le_card hsub)
  · refine { hok with slot := ?_, legs := fun q => ?_ }
    · change (s.route.recordCompletion d m res.isOk).overlay.data d = _
      rw [hdata, if_pos rfl]
    · change LegOk _ d q _ (Function.update w.legs m _ q)
      rcases eq_or_ne q m with rfl | hq
      · rw [Function.update_self]
        refine { hok.legs q with waiting := fun hw => ?_, recorded := fun _ => ⟨?_, fun p hp => ?_⟩ }
        · dsimp only at hw
          split_ifs at hw
        · rw [hseen]
          rintro ⟨⟩
        · rw [hseen] at hp
          cases hp
          exact Finset.mem_insert_self _ _
      · rw [Function.update_of_ne hq]
        refine { hok.legs q with waiting := fun hw hm => ?_, recorded := fun hw => ?_ }
        · rcases Finset.mem_insert.mp hm with hm | hm
          · exact hq hm
          · exact (hok.legs q).waiting hw hm
        · obtain ⟨hne, hack⟩ := (hok.legs q).recorded hw
          exact ⟨hne, fun p hp => hsub (hack p hp)⟩

lemma SessInv.sync (h : SessInv L P base s) (hs : sessStep s (.sync d m) = some s') :
    SessInv L P base s' := by
  obtain ⟨w, p, hw, hst, hseen, rfl⟩ := sessStep_sync hs
  obtain ⟨rs, hok⟩ := h.writes d w hw
  have hleg := hok.legs m
  have h' := h.advanceSynced (hleg.served p (hleg.seen p hseen)).2
  obtain ⟨rs', hok'⟩ := h'.writes d w hw
  have hleg' := hok'.legs m
  refine h'.setLeg hw hok' { hleg' with waiting := nofun, recorded := fun _ => hleg'.recorded ?_ }
  rw [hst]
  nofun

lemma SessInv.keepAlive (h : SessInv L P base s) (hs : sessStep s (.keepAlive m C) = some s') :
    SessInv L P base s' := by
  rcases sessStep_keepAlive hs with rfl | ⟨hC, p, r, hk, rfl⟩
  · exact h
  · obtain ⟨hterm, rfl, rfl⟩ := MemReplica.doKeepAlive_ok hk
    obtain ⟨h', hg⟩ := h.applyUpTo (m := m) hC
    refine h'.setNet rfl rfl fun q B hB => ?_
    rw [Function.update_apply] at hB
    split_ifs at hB with hq
    · subst hq
      rcases List.mem_cons.mp hB with rfl | hB
      · have hmr : ∀ r, (s.setMember q r).net.members q = r := fun r => Function.update_self ..
        rw [Session.Reported, hmr]
        exact ⟨by rw [MemReplica.applyUpTo_term, ← hterm]; rfl, le_rfl⟩
      · exact h'.beats q B hB
    · exact h'.beats q B hB

end Steps

end CraftClient.Client
