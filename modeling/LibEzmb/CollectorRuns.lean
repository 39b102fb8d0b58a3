import LibEzmb.CollectorStart

/-! Runs of the serial collector: what comes in on a port goes out by the device of its pair, and what
a device hears is for the port of its pair. -/

open CHeap CBytes KeyedLists Multipart Runs

namespace LibEzmb

/-! ### The pairs -/

namespace Collector.Serves

variable {ps : List Pairing} {c : Collector}

/-- A stored context is the one of a pair. -/
theorem pair_of_ctx (hs : c.Serves ps) {a : Addr} {ctx : SerialContext}
    (hctx : c.system.manager.ctxs.cell a = some ctx) :
    ∃ p ∈ ps, ctx.ser = p.config ∧ ctx.data = some p.device ∧ ctx.recvCb = some recvCallbackAddr := by
  obtain ⟨w, hw, hmap⟩ := hs.ports
  have hport : ⟨a, ctx⟩ ∈ w.items :=
    hw.refines.port_mem ((hw.refines.models.live a).mpr ⟨ctx, hctx⟩) hctx
  have hmem : ctx.unopened ∈ ps.map Pairing.context := by
    rw [← hmap]
    exact List.mem_map.mpr ⟨⟨a, ctx⟩, hport, rfl⟩
  obtain ⟨p, hp, heq⟩ := List.mem_map.mp hmem
  exact ⟨p, hp, (congrArg SerialContext.ser heq).symm, (congrArg SerialContext.data heq).symm,
    (congrArg SerialContext.recvCb heq).symm⟩

/-- Each pair has a stored context. -/
theorem ctx_of_pair (hs : c.Serves ps) {p : Pairing} (hp : p ∈ ps) :
    ∃ a ctx, c.system.manager.ctxs.cell a = some ctx ∧ ctx.ser = p.config ∧
      ctx.data = some p.device := by
  obtain ⟨w, hw, hmap⟩ := hs.ports
  have hmem : p.context ∈ w.items.map fun q => q.ctx.unopened := by
    rw [hmap]
    exact List.mem_map_of_mem hp
  obtain ⟨q, hq, heq⟩ := List.mem_map.mp hmem
  exact ⟨q.addr, q.ctx, hw.refines.cells q hq, congrArg SerialContext.ser heq,
    congrArg SerialContext.data heq⟩

/-- No two stored contexts have one uid. -/
theorem ctx_unique (hs : c.Serves ps) {a b : Addr} {ctx ctx' : SerialContext}
    (ha : c.system.manager.ctxs.cell a = some ctx) (hb : c.system.manager.ctxs.cell b = some ctx')
    (huid : ctx.ser.uid = ctx'.ser.uid) : a = b := by
  obtain ⟨w, hw, -⟩ := hs.ports
  have hport : ∀ {x : Addr} {d : SerialContext}, c.system.manager.ctxs.cell x = some d →
      ⟨x, d⟩ ∈ w.items :=
    fun hd => hw.refines.port_mem ((hw.refines.models.live _).mpr ⟨_, hd⟩) hd
  have heq := List.inj_on_of_nodup_map w.nodup (hport ha) (hport hb) huid
  exact congrArg Port.addr heq

/-- The device of a pair tells its uid. -/
theorem uid_of_device (hs : c.Serves ps) {p q : Pairing} (hp : p ∈ ps) (hq : q ∈ ps)
    (hdevice : p.device = q.device) : p.config.uid = q.config.uid := by
  obtain ⟨d, hd, hfor⟩ := hs.devices p hp
  obtain ⟨e, he, hfor'⟩ := hs.devices q hq
  rw [hdevice, he] at hd
  cases hd
  rw [hfor.uid, hfor'.uid]

end Collector.Serves

theorem nodup_devices {ps : List Pairing} {c : Collector} (hs : c.Serves ps)
    (hdistinct : (ps.map fun p => p.config.uid).Nodup) : (ps.map Pairing.device).Nodup := by
  have hps : ps.Nodup := hdistinct.of_map _
  refine hps.map_on fun p hp q hq heq => ?_
  exact List.inj_on_of_nodup_map hdistinct hp hq (hs.uid_of_device hp hq heq)

/-! ### From the ports to the bus -/

/-- The touches of a section are of stored contexts, and no callback gets an empty chunk. -/
theorem Models.handleEvents_called {m m' : SerialManager} {order : List Addr} (hm : Models m order)
    (hrunning : AllRunning m.ctxs) (env : Nat → EventEnv) (i : Nat) {events : List PollEvent}
    (hfds : ∀ e ∈ events, 0 ≤ e.fd) {touches : List Touch}
    (hhandle : handleEvents env i events m = .ok (m', touches)) :
    ∀ t ∈ touches, t.target ∈ order ∧ ∀ cb buf, t.called = some (cb, buf) → buf ≠ [] := by
  induction events generalizing i m touches with
  | nil =>
      cases hhandle
      intro t ht
      cases ht
  | cons e events ih =>
      rw [List.forall_mem_cons] at hfds
      obtain ⟨m₁, touches₁, touches₂, hhandled, hhandling, hsnd, rfl, hm₁, hrunning₁⟩ :=
        hm.handleEvents_cons hrunning hfds.1 hhandle
      intro t ht
      rcases List.mem_append.mp ht with ht | ht
      · obtain ⟨-, -, ctx, hctx, -⟩ := hhandled.applied t ht
        refine ⟨(hm.live _).mpr ⟨ctx, hctx⟩, fun cb buf hcalled => ?_⟩
        cases hhandling with
        | ignored => cases ht
        | closed | again =>
            rw [List.mem_singleton.mp ht] at hcalled
            cases hcalled
        | @read a c bytes =>
            rw [List.mem_singleton.mp ht] at hcalled
            simp only at hcalled
            split at hcalled
            · cases hcalled
            · next hnil =>
                obtain ⟨cb', -, heq⟩ := Option.map_eq_some_iff.mp hcalled
                cases heq
                exact hnil
      · exact ih hm₁ hrunning₁ (i + 1) hfds.2 hsnd t ht

/-- A call of `recv_callback` for the port of a pair: the chunk goes to the socket of its device. -/
def Forwards (ps : List Pairing) (north : Addr → OutSocket) (r : Received)
    (north' : Addr → OutSocket) : Prop :=
  ∃ p ∈ ps, ∃ d sock rc, DeviceFor p.config d ∧ r.uid = p.config.uid ∧ r.device = p.device ∧
    r.chunk ≠ [] ∧ north' = Function.update north p.device sock ∧
    eCommonSend (some d) (some r.chunk) r.okTopic r.okPayload (north p.device) = (sock, rc, r.sent)

namespace Collector.Serves

variable {ps : List Pairing} {c : Collector}

theorem recvCallback (hs : c.Serves ps) {a : Addr} {ctx : SerialContext}
    (hctx : c.system.manager.ctxs.cell a = some ctx) {data : Bytes} (hdata : data ≠ [])
    (ok : Bool × Bool) (north : Addr → OutSocket) :
    ∃ north' r, LibEzmb.recvCallback c.system.manager.ctxs c.devices a data ok north =
      .ok (north', r) ∧ Forwards ps north r north' := by
  obtain ⟨p, hp, hser, hptr, -⟩ := hs.pair_of_ctx hctx
  obtain ⟨d, hd, hfor⟩ := hs.devices p hp
  obtain ⟨sock, rc, sent, hsend⟩ : ∃ sock rc sent,
      eCommonSend (some d) (some data) ok.1 ok.2 (north p.device) = (sock, rc, sent) := ⟨_, _, _, rfl⟩
  refine ⟨Function.update north p.device sock, ⟨ctx.ser.uid, data, p.device, ok.1, ok.2, sent⟩, ?_,
    p, hp, d, sock, rc, hfor, ?_, rfl, hdata, rfl, hsend⟩
  · simp only [LibEzmb.recvCallback, Heap.deref_of_cell hctx, Heap.deref_of_cell hd, hptr, ok_bind,
      hsend]
  · show ctx.ser.uid = p.config.uid
    rw [hser]

/-- The calls of a section all go through. -/
theorem recvCallbacks (hs : c.Serves ps) (ok : Nat → Bool × Bool) (i : Nat)
    (calls : List (Addr × Bytes))
    (hcalls : ∀ x ∈ calls, (∃ ctx, c.system.manager.ctxs.cell x.1 = some ctx) ∧ x.2 ≠ [])
    (north : Addr → OutSocket) :
    ∃ north' rs, LibEzmb.recvCallbacks c.system.manager.ctxs c.devices ok i calls north =
      .ok (north', rs) ∧ Run (Forwards ps) north rs north' := by
  induction calls generalizing i north with
  | nil => exact ⟨north, [], rfl, .nil _⟩
  | cons x calls ih =>
      rw [List.forall_mem_cons] at hcalls
      obtain ⟨⟨⟨ctx, hctx⟩, hdata⟩, hrest⟩ := hcalls
      obtain ⟨north₁, r, hcall, hforwards⟩ := hs.recvCallback hctx hdata (ok i) north
      obtain ⟨north₂, rs, hcallbacks, hrun⟩ := ih (i + 1) hrest north₁
      refine ⟨north₂, r :: rs, ?_, .cons hforwards hrun⟩
      simp only [LibEzmb.recvCallbacks, hcall, hcallbacks, ok_bind]

end Collector.Serves

theorem mem_receiveCalls {touches : List Touch} {x : Addr × Bytes} (hx : x ∈ receiveCalls touches) :
    ∃ t ∈ touches, t.target = x.1 ∧ t.called = some (recvCallbackAddr, x.2) := by
  obtain ⟨t, ht, hsome⟩ := List.mem_filterMap.mp hx
  refine ⟨t, ht, ?_⟩
  split at hsome
  · cases hsome
  · next cb buf hcalled =>
      split at hsome
      · next hcb =>
          cases hsome
          exact ⟨rfl, by rw [hcalled, hcb]⟩
      · cases hsome

/-! ### From the bus to the ports -/

/-- What the listener of a device hears is for the port of its pair alone: the bytes go to its
descriptor, which no other port has, if it is open and there are any. -/
def Offers (ps : List Pairing) (c : Collector) (lo : CollectorLabel × CollectorOut) : Prop :=
  ∀ device h written r, lo.2 = .heard device h written r →
    ∃ i env ret, lo.1 = .listen i env ret ∧ c.threads[i]? = some (some device) ∧
      ∃ p ∈ ps, p.device = device ∧ ∃ a ctx, c.system.manager.ctxs.cell a = some ctx ∧
        ctx.ser.uid = p.config.uid ∧ ctx.data = some device ∧
        (∀ b d, c.system.manager.ctxs.cell b = some d → d.ser.uid = p.config.uid → b = a) ∧
        (∀ b d, c.system.manager.ctxs.cell b = some d → 0 ≤ d.fd → d.fd = ctx.fd → b = a) ∧
        (written, r) =
          if h.payload = [] ∨ ctx.fd < 0 then (none, -1) else (some (ctx.fd, h.payload), ret)

theorem offers_of_ne {ps : List Pairing} {c : Collector} {l : CollectorLabel} {o : CollectorOut}
    (hquiet : ∀ device h written r, o ≠ .heard device h written r) : Offers ps c (l, o) :=
  fun device h written r heq => absurd heq (hquiet device h written r)

namespace Collector.Serves

variable {ps : List Pairing} {c : Collector}

theorem onClientRecv (hs : c.Serves ps) {p : Pairing} (hp : p ∈ ps) {d : EDevice}
    (hfor : DeviceFor p.config d) (payload : Bytes) (ret : Int) :
    ∃ a ctx, c.system.manager.ctxs.cell a = some ctx ∧ ctx.ser = p.config ∧
      ctx.data = some p.device ∧ LibEzmb.onClientRecv c.system.manager d payload ret =
        .ok (if payload = [] ∨ ctx.fd < 0 then (none, -1) else (some (ctx.fd, payload), ret)) := by
  obtain ⟨a, ctx, hctx, hser, hdata⟩ := hs.ctx_of_pair hp
  refine ⟨a, ctx, hctx, hser, hdata, ?_⟩
  by_cases hpayload : payload = []
  · rw [if_pos (Or.inl hpayload), hpayload]
    rfl
  · obtain ⟨w, hw, -⟩ := hs.ports
    rcases hw.refines.models.write_spec d.uid hpayload ret with
      ⟨-, habsent⟩ | ⟨b, ctx', -, hctx', huid', hwrite⟩ | ⟨-, b, -, ctx', hctx', hnull⟩
    · have huid := habsent a ((hw.refines.models.live a).mpr ⟨ctx, hctx⟩)
      rw [uidAt, hctx] at huid
      exact absurd ((congrArg SerialConfig.uid hser).trans hfor.uid) huid
    · have hsame : b = a := hs.ctx_unique hctx' hctx (by rw [huid', hser, hfor.uid])
      rw [hsame, hctx] at hctx'
      cases hctx'
      simp only [LibEzmb.onClientRecv, hwrite, hpayload, false_or]
    · obtain ⟨q, hq, hser', -⟩ := hs.pair_of_ctx hctx'
      obtain ⟨e, -, hfor'⟩ := hs.devices q hq
      rw [hser', hfor'.uid] at hnull
      cases hnull

end Collector.Serves

/-! ### Steps -/

/-- What a step leaves: the pairs are still served, what was received has gone to the devices, and
what was heard to the ports. -/
structure ServeStep (ps : List Pairing) (c : Collector) (lo : CollectorLabel × CollectorOut)
    (t : Collector) : Prop where
  serves : t.Serves ps
  forwards : Run (Forwards ps) c.north lo.2.receives t.north
  offers : Offers ps c lo

theorem PortMap.SamePorts.contexts {w w' : PortMap} (hsame : w.SamePorts w') :
    (w'.items.map fun p => p.ctx.unopened) = w.items.map fun p => p.ctx.unopened := by
  have hmap : ∀ v : PortMap,
      (v.items.map fun p => p.ctx.unopened) = (v.items.map Port.unopened).map Port.ctx := by
    intro v
    rw [List.map_map]
    rfl
  rw [hmap w', hmap w, show w'.items.map Port.unopened = w.items.map Port.unopened from hsame]

namespace Collector.Serves

variable {ps : List Pairing} {c : Collector}

theorem reader (hs : c.Serves ps) (env : ReaderEnv) (ok : Nat → Bool × Bool) :
    ∃ t o, c.step (.reader env ok) = .ok (t, o) ∧ ServeStep ps c (.reader env ok, o) t := by
  obtain ⟨w, hw, hmap⟩ := hs.ports
  obtain ⟨system, touches, w', hread, hsame, ht, -⟩ := hw.readThread env
  have hact : c.system.act (.reader env) = .ok (system, .touched touches) := by
    simp only [SerialSystem.act, hread, ok_bind]
  have hlive : ∀ x ∈ receiveCalls touches,
      (∃ ctx, c.system.manager.ctxs.cell x.1 = some ctx) ∧ x.2 ≠ [] := by
    intro x hx
    obtain ⟨t, ht, htarget, hcalled⟩ := mem_receiveCalls hx
    rcases touches_of_step hact with ⟨hnone, -⟩ | ⟨env', events, m', -, hphase, hhandle⟩
    · rw [show touches = [] from hnone] at ht
      cases ht
    · obtain ⟨hmem, hchunk⟩ := hw.refines.models.handleEvents_called hw.running env'.event 0
        (fun e he => hw.nonneg e.fd (by rw [hphase]; exact List.mem_map_of_mem he)) hhandle t ht
      rw [htarget] at hmem
      exact ⟨hw.refines.models.ctx hmem, hchunk _ _ hcalled⟩
  obtain ⟨north, rs, hcalls, hrun⟩ := hs.recvCallbacks ok 0 _ hlive c.north
  refine ⟨{ c with system := system, north := north }, .received rs, ?_,
    ⟨⟨w', ht, by rw [hsame.contexts, hmap]⟩, hs.devices, hs.threads⟩, hrun, offers_of_ne (by simp)⟩
  simp only [step, SerialSystem.step_of_alive hw.alive, hact, Refusal.lift, ok_bind,
    SerialOut.touches, hcalls]

theorem monitor (hs : c.Serves ps) (env : Addr → OpenEnv) :
    ∃ t o, c.step (.monitor env) = .ok (t, o) ∧ ServeStep ps c (.monitor env, o) t := by
  obtain ⟨w, hw, hmap⟩ := hs.ports
  obtain ⟨m', hpass, hsection⟩ := hw.refines.models.monitorPass_spec env
  obtain ⟨w', hsame, ht⟩ := hw.thread hsection hw.nodup hw.nonneg
  refine ⟨{ c with system := { c.system with manager := m' } }, .quiet, ?_,
    ⟨⟨w', ht, by rw [hsame.contexts, hmap]⟩, hs.devices, hs.threads⟩, .nil _, offers_of_ne (by simp)⟩
  simp only [step, SerialSystem.step_of_alive hw.alive, SerialSystem.act, hpass, Refusal.lift, ok_bind]

/-- A thread has the device of a pair. -/
theorem thread (hs : c.Serves ps) {i : Nat} {ptr : Ptr} (hi : c.threads[i]? = some ptr) :
    ∃ p ∈ ps, ptr = some p.device ∧
      ∃ d, c.devices.cell p.device = some d ∧ DeviceFor p.config d := by
  have hmem := List.mem_of_getElem? hi
  rw [hs.threads] at hmem
  obtain ⟨p, hp, heq⟩ := List.mem_map.mp hmem
  exact ⟨p, hp, heq.symm, hs.devices p hp⟩

theorem begin (hs : c.Serves ps) (i : Nat) :
    (∃ t o, c.step (.begin i) = .ok (t, o) ∧ ServeStep ps c (.begin i, o) t) ∨
      c.step (.begin i) = .error .impossible := by
  cases hi : c.threads[i]? with
  | none => exact Or.inr (by simp only [step, hi])
  | some ptr =>
      obtain ⟨p, hp, rfl, d, hd, hfor⟩ := hs.thread hi
      have hstart : eDeviceListenStart (some d) = some { d with running := true } := by
        rw [eDeviceListenStart, hfor.cb]
        rfl
      refine Or.inl ⟨{ c with devices := c.devices.set p.device { d with running := true } }, .quiet,
        ?_, ⟨hs.ports, fun q hq => ?_, hs.threads⟩, .nil _, offers_of_ne (by simp)⟩
      · simp only [step, hi, Heap.deref_of_cell hd, Heap.store_of_cell hd, hstart, Refusal.lift,
          ok_bind]
      · obtain ⟨e, he, hfor'⟩ := hs.devices q hq
        show ∃ e', (c.devices.set p.device { d with running := true }).cell q.device = some e' ∧ _
        rw [Heap.set_cell]
        by_cases heq : q.device = p.device
        · rw [heq, hd] at he
          cases he
          rw [if_pos heq]
          exact ⟨_, rfl, hfor'.uid, hfor'.topic, hfor'.cb⟩
        · rw [if_neg heq]
          exact ⟨e, he, hfor'⟩

theorem listen (hs : c.Serves ps) (i : Nat) (env : ListenEnv) (ret : Int) :
    (∃ t o, c.step (.listen i env ret) = .ok (t, o) ∧ ServeStep ps c (.listen i env ret, o) t) ∨
      c.step (.listen i env ret) = .error .impossible := by
  cases hi : c.threads[i]? with
  | none => exact Or.inr (by simp only [step, hi])
  | some ptr =>
      obtain ⟨p, hp, rfl, d, hd, hfor⟩ := hs.thread hi
      cases hiter : eDeviceListenIteration d recvFrame env (c.south p.device) with
      | none => exact Or.inr (by simp only [step, hi, Heap.deref_of_cell hd, Refusal.lift, ok_bind, hiter])
      | some r =>
          obtain ⟨heard, fs⟩ := r
          have hserves : Collector.Serves ps
              { c with south := Function.update c.south p.device fs } :=
            ⟨hs.ports, hs.devices, hs.threads⟩
          cases heard with
          | none =>
              refine Or.inl ⟨_, .quiet, ?_, hserves, .nil _, offers_of_ne (by simp)⟩
              simp only [step, hi, Heap.deref_of_cell hd, Refusal.lift, ok_bind, hiter]
          | some h =>
              obtain ⟨a, ctx, hctx, hser, hdata, hwrite⟩ := hs.onClientRecv hp hfor h.payload ret
              obtain ⟨written, r, hoffer⟩ : ∃ written r, (written, r) = if h.payload = [] ∨ ctx.fd < 0
                  then (none, (-1 : Int)) else (some (ctx.fd, h.payload), ret) := ⟨_, _, rfl⟩
              rw [← hoffer] at hwrite
              refine Or.inl ⟨_, .heard p.device h written r, ?_, hserves, .nil _, ?_⟩
              · simp only [step, hi, Heap.deref_of_cell hd, Refusal.lift, ok_bind, hiter, hfor.cb,
                  if_true, hwrite]
              · intro device h' written r' heq
                cases heq
                obtain ⟨w, hw, -⟩ := hs.ports
                refine ⟨i, env, ret, rfl, hi, p, hp, rfl, a, ctx, hctx, by rw [hser], hdata,
                  fun b e he huid => hs.ctx_unique he hctx (by rw [huid, hser]),
                  fun b e he hopen hfd => hw.owned.inj hctx he (by rw [← hfd]; exact hopen) hfd, hoffer⟩

/-- **One step.** No step faults, and each keeps to the pairs. -/
theorem step_spec (hs : c.Serves ps) (l : CollectorLabel) :
    (∃ t o, c.step l = .ok (t, o) ∧ ServeStep ps c (l, o) t) ∨ c.step l = .error .impossible := by
  cases l with
  | reader env ok => exact Or.inl (hs.reader env ok)
  | monitor env => exact Or.inl (hs.monitor env)
  | arrive device m =>
      exact Or.inl ⟨_, .quiet, rfl, ⟨hs.ports, hs.devices, hs.threads⟩, .nil _, offers_of_ne (by simp)⟩
  | begin i => exact hs.begin i
  | listen i env ret => exact hs.listen i env ret

end Collector.Serves

/-! ### Runs -/

/-- The calls of `recv_callback` in a run. -/
def received (los : List (CollectorLabel × CollectorOut)) : List Received :=
  los.flatMap fun lo => lo.2.receives

/-- The messages that calls of `recv_callback` have sent by a device. -/
def sentBy (device : Addr) (rs : List Received) : List Msg :=
  rs.flatMap fun r => if r.device = device then r.sent else []

/-- The chunks for the port with a uid of which both frames were accepted. -/
def acceptedChunks (uid : CStr) (rs : List Received) : List Bytes :=
  (rs.filter fun r => decide (r.uid = some uid) && r.okTopic && r.okPayload).map Received.chunk

/-- For no chunk of the port the topic frame alone was accepted. -/
def Untorn (uid : CStr) (rs : List Received) : Prop :=
  ∀ r ∈ rs, r.uid = some uid → r.okTopic = true → r.okPayload = true

namespace Collector.Serves

variable {ps : List Pairing} {c t : Collector} {los : List (CollectorLabel × CollectorOut)}

theorem step (hs : c.Serves ps) {lo : CollectorLabel × CollectorOut}
    (hstep : Fires Collector.step c lo t) : ServeStep ps c lo t := by
  obtain ⟨l, o⟩ := lo
  have hok : c.step l = .ok (t, o) := hstep
  rcases hs.step_spec l with ⟨t', o', hstep', hserve⟩ | himpossible
  · rw [hok] at hstep'
    cases hstep'
    exact hserve
  · rw [hok] at himpossible
    cases himpossible

/-- **A run.** -/
theorem run (hs : c.Serves ps) (hrun : Run (Fires Collector.step) c los t) :
    t.Serves ps ∧ Run (ServeStep ps) c los t ∧ Run (Forwards ps) c.north (received los) t.north := by
  induction hrun with
  | nil c => exact ⟨hs, .nil c, .nil c.north⟩
  | @cons c u t lo los hstep hrest ih =>
      have hserve := hs.step hstep
      obtain ⟨ht, hserves, hforwards⟩ := ih hserve.serves
      refine ⟨ht, .cons hserve hserves, ?_⟩
      rw [received, List.flatMap_cons]
      exact hserve.forwards.append hforwards

end Collector.Serves

theorem forwards_placed {ps : List Pairing} {north north' : Addr → OutSocket} {rs : List Received}
    (hrun : Run (Forwards ps) north rs north') :
    ∀ r ∈ rs, ∃ p ∈ ps, r.uid = p.config.uid ∧ r.device = p.device := by
  induction hrun with
  | nil => simp
  | cons hstep _ ih =>
      obtain ⟨p, hp, d, sock, rc, -, huid, hdevice, -⟩ := hstep
      rw [List.forall_mem_cons]
      exact ⟨⟨p, hp, huid, hdevice⟩, ih⟩

/-- As long as its socket never takes a topic frame alone, a device sends what was accepted for the port
of its pair. -/
theorem forwards_sent {ps : List Pairing}
    (hpairs : ∀ p ∈ ps, ∀ q ∈ ps, p.device = q.device ↔ p.config.uid = q.config.uid) {p : Pairing}
    (hp : p ∈ ps) {uid : CStr} (huid : p.config.uid = some uid) {north north' : Addr → OutSocket}
    {rs : List Received} (hrun : Run (Forwards ps) north rs north')
    (hpending : (north p.device).pending = []) (huntorn : Untorn uid rs) :
    sentBy p.device rs =
      (acceptedChunks uid rs).map fun chunk => [(formatTopic uid northSuffix).bytes, chunk] := by
  induction hrun with
  | nil => rfl
  | @cons north₀ north₁ north₂ r rs hstep hrest ih =>
      obtain ⟨q, hq, d, sock, rc, hfor, hruid, hdevice, hchunk, rfl, hsend⟩ := hstep
      rw [Untorn, List.forall_mem_cons] at huntorn
      rw [sentBy, List.flatMap_cons, acceptedChunks, List.filter_cons]
      by_cases hsame : q.device = p.device
      · have hquid : q.config.uid = some uid := ((hpairs q hq p hp).mp hsame).trans huid
        have hduid : d.uid = uid := Option.some.inj (hfor.uid.symm.trans hquid)
        rw [hruid, hquid] at huntorn ⊢
        rw [hsame, Function.update_self] at ih
        rw [hsame, eCommonSend_some d _ hchunk, hfor.topic, hduid] at hsend
        rw [if_pos (hdevice.trans hsame)]
        cases htopic : r.okTopic with
        | false =>
            rw [htopic] at hsend
            obtain ⟨hsock, hrest'⟩ := Prod.mk.inj hsend
            obtain ⟨-, hsent⟩ := Prod.mk.inj hrest'
            rw [← hsent, List.nil_append, Bool.and_false, Bool.false_and]
            exact ih (by rw [← hsock]; exact hpending) huntorn.2
        | true =>
            have hpayload := huntorn.1 rfl htopic
            rw [htopic, hpayload, hpending] at hsend
            obtain ⟨hsock, hrest'⟩ := Prod.mk.inj hsend
            obtain ⟨-, hsent⟩ := Prod.mk.inj hrest'
            rw [← hsent, hpayload, decide_eq_true rfl]
            exact congrArg _ (ih (by rw [← hsock]) huntorn.2)
      · have hquid : r.uid ≠ some uid := by
          rw [hruid]
          intro heq
          exact hsame ((hpairs q hq p hp).mpr (heq.trans huid.symm))
        rw [Function.update_of_ne (Ne.symm hsame)] at ih
        rw [if_neg (by rw [hdevice]; exact hsame), decide_eq_false hquid]
        exact ih hpending huntorn.2

/-- **Collector pairing.** When nothing fails in the start, it ends, within the array of threads, with a
port, a device and a thread for each configuration, in order. In every later run each chunk of a port goes
to the device of its pair, which sends it once under its north topic if its frames are accepted, and
what a device hears is for the port of its pair alone. -/
theorem collector_pairing {env : StartEnv} {configs : Heap SerialConfig} {nodes : QHeap}
    {portQueue : EQueue} {cs : List SerialConfig} (hqueue : QueueOf configs nodes portQueue cs)
    (hlen : cs.length ≤ MAX_THREAD_COUNT) (hnamed : ∀ c ∈ cs, c.uid ≠ none)
    (hdistinct : (cs.map SerialConfig.uid).Nodup) (henv : env.Succeeds cs.length) :
    ∃ c ps, collectorMain env configs nodes portQueue = .ok (.runs c) ∧
      ps.map Pairing.config = cs ∧ (ps.map Pairing.device).Nodup ∧ c.Serves ps ∧
      ∀ los t, Run (Fires Collector.step) c los t →
        t.Serves ps ∧ Run (ServeStep ps) c los t ∧ (∀ l f, t.step l ≠ .error (.fault f)) ∧
        (∀ r ∈ received los, ∃ p ∈ ps, r.uid = p.config.uid ∧ r.device = p.device) ∧
        ∀ p ∈ ps, ∀ uid, p.config.uid = some uid → Untorn uid (received los) →
          sentBy p.device (received los) = (acceptedChunks uid (received los)).map
            fun chunk => [(formatTopic uid northSuffix).bytes, chunk] := by
  obtain ⟨c, ps, hmain, hconfigs, hserves, hnorth⟩ :=
    collectorMain_spec hqueue hlen hnamed hdistinct henv
  have huids : (ps.map fun p => p.config.uid).Nodup := by
    rw [← hconfigs, List.map_map] at hdistinct
    exact hdistinct
  have hpairs : ∀ p ∈ ps, ∀ q ∈ ps, p.device = q.device ↔ p.config.uid = q.config.uid := by
    intro p hp q hq
    refine ⟨hserves.uid_of_device hp hq, fun heq => ?_⟩
    rw [List.inj_on_of_nodup_map huids hp hq heq]
  refine ⟨c, ps, hmain, hconfigs, nodup_devices hserves huids, hserves, fun los t hrun => ?_⟩
  obtain ⟨ht, hsteps, hforwards⟩ := hserves.run hrun
  refine ⟨ht, hsteps, fun l f hfault => ?_, forwards_placed hforwards, fun p hp uid huid huntorn => ?_⟩
  · rcases ht.step_spec l with ⟨u, o, hok, -⟩ | himpossible
    · rw [hfault] at hok
      cases hok
    · rw [hfault] at himpossible
      cases himpossible
  · exact forwards_sent hpairs hp huid hforwards (by rw [hnorth]) huntorn

def oneConfig : Heap SerialConfig := Heap.empty.set 0 (config8N1 uidA)

/-- A start in which every device is made. -/
def sampleStart (manager calloc thread : Bool) : StartEnv where
  node := bumpNode
  portNode := bumpNode
  device := .bump (freshDevice uidA .collector (some onClientRecvAddr))
  manager := manager
  create _ := ⟨true, true, true, true, true, true⟩
  add _ := bumpAdd calloc
  thread _ := thread

/-- The port is opened and two bytes are read off it; then a message arrives for its device. -/
def collectorRun (ok : Bool × Bool) : List CollectorLabel :=
  [.monitor (opensAs 3), .reader pollsInput fun _ => ok, .reader pollsInput fun _ => ok,
    .reader pollsInput fun _ => ok, .reader pollsInput fun _ => ok, .begin 0,
    .arrive 0 [(formatTopic uidA southSuffix).bytes, [9]], .listen 0 ⟨some true, true, true⟩ 1]

def collectorOuts (ok : Bool × Bool) (sent : List Msg) : List CollectorOut :=
  [.quiet, .received [], .received [], .received [],
    .received [⟨some uidA, [1, 2], 0, ok.1, ok.2, sent⟩], .quiet, .quiet,
    .heard 0 ⟨(formatTopic uidA southSuffix).bytes, [9], true⟩ (some (3, [9])) 1]

theorem oneConfig_exec : ∃ nodes q c, QueueOf oneConfig nodes q [config8N1 uidA] ∧
    (∀ calloc thread,
      collectorMain (sampleStart false calloc thread) oneConfig nodes q = .ok (.exits 1)) ∧
    (∀ thread, collectorMain (sampleStart true false thread) oneConfig nodes q = .ok (.exits 1)) ∧
    (collectorMain (sampleStart true true false) oneConfig nodes q =
      .ok (.runs { c with threads := [] })) ∧
    collectorMain (sampleStart true true true) oneConfig nodes q = .ok (.runs c) ∧
    (∃ t, exec Collector.step c (collectorRun (true, true)) = .ok (t, collectorOuts (true, true)
      [[(formatTopic uidA northSuffix).bytes, [1, 2]]])) ∧
    ∃ t, exec Collector.step c (collectorRun (false, false)) =
      .ok (t, collectorOuts (false, false) []) := by
  have hinit : Holds (eQueueInit bumpNode Heap.empty 0).1 (eQueueInit bumpNode Heap.empty 0).2 [] :=
    ⟨_, [], QueueRep.init_spec bumpNode Heap.empty 0, rfl⟩
  obtain ⟨nodes, q, hpush, hholds⟩ := hinit.push bumpNode (some 0)
  have hqueue : QueueOf oneConfig nodes q [config8N1 uidA] := ⟨[0], hholds, .cons rfl .nil⟩
  cases hpush
  exact ⟨_, _, _, hqueue, fun _ _ => rfl, fun _ => rfl, rfl, rfl, ⟨_, rfl⟩, ⟨_, rfl⟩⟩

def twoConfigs : Heap SerialConfig :=
  (Heap.empty.set 0 (config8N1 uidA)).set 1 (config8N1 uidB)

/-- Both ports are opened and read from; then a message arrives for the device of the second one. -/
def pairRun : List CollectorLabel :=
  [.monitor opensApart, .reader pollsInput fun _ => (true, true),
    .reader pollsInput fun _ => (true, true), .reader pollsInput fun _ => (true, true),
    .reader pollsInput fun _ => (true, true), .begin 0, .begin 1,
    .arrive 1 [(formatTopic uidB southSuffix).bytes, [9]], .listen 1 ⟨some true, true, true⟩ 1]

def pairOuts : List CollectorOut :=
  [.quiet, .received [], .received [], .received [],
    .received [⟨some uidA, [1, 2], 0, true, true, [[(formatTopic uidA northSuffix).bytes, [1, 2]]]⟩,
      ⟨some uidB, [1, 2], 1, true, true, [[(formatTopic uidB northSuffix).bytes, [1, 2]]]⟩],
    .quiet, .quiet, .quiet,
    .heard 1 ⟨(formatTopic uidB southSuffix).bytes, [9], true⟩ (some (4, [9])) 1]

theorem twoConfigs_exec : ∃ nodes q c,
    QueueOf twoConfigs nodes q [config8N1 uidA, config8N1 uidB] ∧
      collectorMain (sampleStart true true true) twoConfigs nodes q = .ok (.runs c) ∧
      ∃ t, exec Collector.step c pairRun = .ok (t, pairOuts) := by
  have hinit : Holds (eQueueInit bumpNode Heap.empty 0).1 (eQueueInit bumpNode Heap.empty 0).2 [] :=
    ⟨_, [], QueueRep.init_spec bumpNode Heap.empty 0, rfl⟩
  obtain ⟨nodes, q, hpush, hholds⟩ := hinit.push bumpNode (some 0)
  obtain ⟨nodes', q', hpush', hholds'⟩ := hholds.push bumpNode (some 1)
  have hqueue : QueueOf twoConfigs nodes' q' [config8N1 uidA, config8N1 uidB] :=
    ⟨[0, 1], hholds', .cons rfl (.cons rfl .nil)⟩
  cases hpush
  cases hpush'
  exact ⟨_, _, _, hqueue, rfl, _, rfl⟩

theorem collector_pairing_two : ∃ nodes q c ps t,
    collectorMain (sampleStart true true true) twoConfigs nodes q = .ok (.runs c) ∧
      ps.map Pairing.config = [config8N1 uidA, config8N1 uidB] ∧ (ps.map Pairing.device).Nodup ∧
      c.Serves ps ∧ Run (ServeStep ps) c (pairRun.zip pairOuts) t := by
  obtain ⟨nodes, q, c, hqueue, hruns, t, hexec⟩ := twoConfigs_exec
  have henv : (sampleStart true true true).Succeeds [config8N1 uidA, config8N1 uidB].length :=
    ⟨rfl, fun _ _ => ⟨rfl, rfl, rfl, rfl, rfl, rfl⟩, fun _ _ => rfl, fun _ _ => rfl⟩
  have huids : ([config8N1 uidA, config8N1 uidB].map SerialConfig.uid).Nodup := by decide
  obtain ⟨c', ps, hmain, hconfigs, hdevices, hserves, hlater⟩ := collector_pairing hqueue (by decide)
    (by simp [config8N1]) huids henv
  rw [hruns] at hmain
  cases hmain
  exact ⟨nodes, q, c, ps, t, hruns, hconfigs, hdevices, hserves,
    (hlater _ t (run_of_exec hexec)).2.1⟩

/-- Although every device is made, the start gives up without memory for the manager or for the context
of a port, and leaves a device without a thread when none can be made; and a chunk is not sent when the
socket of the device refuses it. -/
theorem collector_pairing_counterexample :
    ∃ nodes q c, QueueOf oneConfig nodes q [config8N1 uidA] ∧
      (∀ manager calloc thread, (manager && calloc && thread) = false →
        ¬∃ c ps, collectorMain (sampleStart manager calloc thread) oneConfig nodes q = .ok (.runs c) ∧
          ps.map Pairing.config = [config8N1 uidA] ∧ c.Serves ps) ∧
      collectorMain (sampleStart true true true) oneConfig nodes q = .ok (.runs c) ∧
      ∃ t los, Run (Fires Collector.step) c los t ∧
        (received los).map (fun r => (r.uid, r.chunk)) = [(some uidA, [1, 2])] ∧
        ∀ device, sentBy device (received los) = [] := by
  obtain ⟨nodes, q, c, hqueue, hmanager, hcalloc, hthread, hruns, -, ⟨t, hexec⟩⟩ := oneConfig_exec
  refine ⟨nodes, q, c, hqueue, ?_, hruns, t, _, run_of_exec hexec, rfl, fun device => ?_⟩
  · rintro manager calloc thread hfails ⟨c', ps, hmain, hconfigs, hserves⟩
    cases manager with
    | false =>
        rw [hmanager] at hmain
        cases hmain
    | true =>
        cases calloc with
        | false =>
            rw [hcalloc] at hmain
            cases hmain
        | true =>
            cases thread with
            | true => cases hfails
            | false =>
                rw [hthread] at hmain
                cases hmain
                have hlen := congrArg List.length hserves.threads
                rw [List.length_map, ← List.length_map Pairing.config, hconfigs] at hlen
                cases hlen
  · show (if 0 = device then [] else []) ++ [] = []
    split <;> rfl

end LibEzmb
