import LibEzmb.BusProgress
import LibEzmb.GatewayDelivery

/-! The gateway comes to rest: from every state that it gets to, rounds of the proxy and of the listeners
and steps of the actuators, with nothing new coming in, deliver all that is under way between a port and
an actuator. -/

open CHeap CBytes Multipart Runs

namespace LibEzmb

variable {α π : Type}

/-! ### The work of an actuator -/

namespace Bridge

variable {M : Malloc EQnode} {K : Malloc MessageQueue} {code : TransformCode π} {s t : Bridge π}
  {entries : List (Addr × Arrival)}

/-- How far app_main_thread is from having passed on so many messages; a message that it sends leaves
work for others. -/
def work (s : Bridge π) (n : Nat) : Nat :=
  7 * n + match s.phase with
    | .test => 2
    | .pop => 1
    | .holding _ => 0

theorem work_of_busy (hbusy : s.phase.Busy) (n : Nat) : s.work n = 7 * n := by
  unfold work
  cases hphase : s.phase with
  | holding msg => rfl
  | test | pop =>
      rw [hphase] at hbusy
      exact hbusy.elim

/-- **app_main_thread goes on.** -/
theorem Pending.advance (hpending : s.Pending entries)
    (hdrives : Drives code s.driver (arrived entries)) (hbusy : entries ≠ [] ∨ s.phase ≠ .test)
    (M : Malloc EQnode) (K : Malloc MessageQueue) :
    ∃ t o entries', s.step M K code .app = .ok (t, o) ∧ t.Pending entries' ∧ t.driver = s.driver ∧
      t.work entries'.length + (if o = .quiet then 0 else 4) < s.work entries.length := by
  cases hphase : s.phase with
  | test =>
      obtain ⟨t, hstep, hpending', -, hpop, hdriver, -⟩ := hpending.app_test M K code hphase
      have hne := hbusy.resolve_right fun hne => hne hphase
      refine ⟨t, .quiet, entries, hstep, hpending', hdriver, ?_⟩
      rw [if_pos rfl, work, work, hphase, hpop hne]
      exact Nat.lt_succ_self _
  | pop =>
      obtain ⟨e, rest, t, -, hstep, hpending', hholds, hdriver, -⟩ := hpending.app_pop M K code hphase
      refine ⟨t, .quiet, entries, hstep, hpending', hdriver, ?_⟩
      rw [if_pos rfl, work_of_busy hholds, work, hphase]
      exact Nat.lt_succ_self _
  | holding msg =>
      have hholds : s.phase.Busy := by
        rw [hphase]
        trivial
      obtain ⟨e, rest, rfl, ⟨fault, hstops, -⟩ | ⟨t, o, d, hstep, hpending', hdriver, hpasses⟩⟩ :=
        hpending.app_holding M K code hholds
      · obtain ⟨d, hd, hcall⟩ := hdrives e.2 List.mem_cons_self
        exact absurd hcall (hstops.not_callable hd)
      · refine ⟨t, o, rest, hstep, hpending', hdriver, ?_⟩
        have hrest : t.work rest.length = 7 * rest.length + 2 := by rw [work, hpasses.phase]
        rw [hpasses.out, if_neg (by simp), work_of_busy hholds, hrest, List.length_cons]
        omega

/-- Whatever an actuator does, it has its driver and its messages in hand. -/
theorem exec_keeps {driver : EPluginDriver} {ls : List BridgeLabel} {os : List BridgeOut}
    (hs : (∃ entries, s.Pending entries) ∧ s.driver = some driver)
    (hexec : exec (Bridge.step M K code) s ls = .ok (t, os)) :
    (∃ entries, t.Pending entries) ∧ t.driver = some driver := by
  refine (run_of_exec hexec).invariant
    (I := fun s => (∃ entries, s.Pending entries) ∧ s.driver = some driver) ?_ hs
  rintro u ⟨l, o⟩ v ⟨⟨entries, hpending⟩, hdriver⟩ hstep
  obtain ⟨entries', hpending', hdriver', -⟩ := hpending.step hdriver hstep
  exact ⟨⟨entries', hpending'⟩, hdriver'⟩

end Bridge

/-! ### What can go on -/

/-- The `malloc`s of the callbacks of the actuators succeed. -/
def GatewayLabel.Allocates {site : Site α π} : GatewayLabel site → Prop
  | .hearMonitor _ _ okMsg okPayload | .client _ okMsg okPayload _ => okMsg = true ∧ okPayload = true
  | _ => True

/-- Nothing comes in: no section of the manager's threads, no chunk of a client. -/
def GatewayLabel.Internal {site : Site α π} : GatewayLabel site → Prop
  | .reader _ | .monitor _ | .client _ _ _ _ => False
  | .begin _ | .forward _ _ | .hearPort _ _ _ | .hearMonitor _ _ _ _ | .app _ => True

namespace Gateway

variable {site : Site α π} [DecidableEq α] {s t : Gateway site} {driver : α → EPluginDriver}
  {los : List (GatewayLabel site × GatewayOut site)}

/-- What waits for the impossible does not fault. -/
theorem expect_bind_ne {β γ : Type} {x : Option β} {g : β → Except Refusal γ} {f : Fault}
    (hg : ∀ b, x = some b → g b ≠ .error (.fault f)) :
    (Refusal.expect x >>= g) ≠ .error (.fault f) := by
  cases x with
  | none => exact nofun
  | some b => exact hg b rfl

/-- The collector's step in front does not fault. -/
theorem collector_bind_ne {c : Collector} {ps : List Pairing} (hserves : c.Serves ps) {γ : Type}
    (l : CollectorLabel) {g : Collector × CollectorOut → Except Refusal γ} {f : Fault}
    (hg : ∀ c' o, c.step l = .ok (c', o) → g (c', o) ≠ .error (.fault f)) :
    (c.step l >>= g) ≠ .error (.fault f) := by
  rcases hserves.step_spec l with ⟨c', o, hstep, -⟩ | hstep
  · rw [hstep]
    exact hg c' o hstep
  · rw [hstep]
    exact nofun

/-- What holds in every state of a run. -/
structure Ready (driver : α → EPluginDriver) (s : Gateway site) : Prop where
  lossless : BusState.Lossless site.bus s.bus
  labelled : ∀ x, ∀ m ∈ s.bus.sent x, ∃ payload,
    m = [(site.bus.device x).sendTopic.bytes, payload]
  serves : s.collector.Serves site.ps
  south : ∀ a, s.collector.south a = []
  actuator : ∀ a, (∃ entries, (s.actuator a).Pending entries) ∧
    (s.actuator a).driver = some (driver a)
  functions : ∀ a, Bridge.HasFunctions (site.code a) (driver a)

theorem Ready.step (hready : s.Ready driver) {lo : GatewayLabel site × GatewayOut site}
    (hstep : Fires Gateway.step s lo t) : t.Ready driver where
  lossless := (step_bus hstep).lossless hready.lossless
  labelled x m hm := by
    rw [(step_bus hstep).sent x] at hm
    rcases List.mem_append.mp hm with hm | hm
    · exact hready.labelled x m hm
    · obtain ⟨payload, -, rfl⟩ := List.mem_map.mp hm
      exact ⟨payload, rfl⟩
  serves := by
    obtain ⟨clos, hcollector, -⟩ := step_collector hstep
    exact (hready.serves.run hcollector).1
  south := (step_hands hready.serves hready.south hstep).2
  actuator a := by
    obtain ⟨als, aos, hexec, -⟩ := step_actuator a hstep
    exact Bridge.exec_keeps (hready.actuator a) hexec
  functions := hready.functions

theorem Starts.ready (hstart : s.Starts driver)
    (hfunctions : ∀ a, Bridge.HasFunctions (site.code a) (driver a)) : s.Ready driver where
  lossless := by
    rw [hstart.bus]
    exact BusState.lossless_start
  labelled x m hm := by
    rw [hstart.bus] at hm
    cases hm
  serves := hstart.serves
  south := hstart.south
  actuator a := by
    obtain ⟨config, start, hmain⟩ := hstart.actuator a
    exact ⟨⟨[], (Bridge.Pending.init hmain).1⟩, hstart.driver a⟩
  functions := hfunctions

omit [DecidableEq α] in
/-- An actuator can pass on whatever it has. -/
theorem drives_of_functions {a : α} {d : EPluginDriver} (hdriver : (s.actuator a).driver = some d)
    (hfunctions : Bridge.HasFunctions (site.code a) d) (as : List Arrival) :
    Bridge.Drives (site.code a) (s.actuator a).driver as :=
  fun b _ => ⟨d, hdriver, hfunctions.callable b⟩

/-! ### No step faults -/

/-- The actuator's step in front does not fault. -/
theorem act_bind_ne {a : α} {d : EPluginDriver}
    (hactuator : (∃ entries, (s.actuator a).Pending entries) ∧ (s.actuator a).driver = some d)
    (hfunctions : Bridge.HasFunctions (site.code a) d) {l : BridgeLabel} (hl : Bridge.Allocates l) {γ : Type}
    {g : Gateway site × Option Forward → Except Refusal γ} {f : Fault}
    (hg : ∀ x, g x ≠ .error (.fault f)) : (s.act a l >>= g) ≠ .error (.fault f) := by
  obtain ⟨⟨entries, hpending⟩, hdriver⟩ := hactuator
  obtain ⟨bridge, out, hstep⟩ : ∃ bridge out,
      (s.actuator a).step site.nodes site.messages (site.code a) l = .ok (bridge, out) := by
    cases l with
    | arrive okMsg okPayload what =>
        obtain ⟨rfl, rfl⟩ := hl
        obtain ⟨bridge, hstep, -⟩ := hpending.arrive site.nodes site.messages (site.code a) what
        exact ⟨bridge, _, hstep⟩
    | app =>
        obtain ⟨bridge, out, hstep, -⟩ := hpending.app site.nodes site.messages
          (drives_of_functions hdriver hfunctions _)
        exact ⟨bridge, out, hstep⟩
  simp only [act, hstep, Refusal.lift, ok_bind]
  split
  · rw [bind_assoc]
    exact expect_bind_ne fun _ _ => hg _
  · exact hg _

/-- **No step faults.** -/
theorem Ready.step_total (hready : s.Ready driver) {l : GatewayLabel site} (hl : l.Allocates)
    (f : Fault) : s.step l ≠ .error (.fault f) := by
  cases l with
  | reader env =>
      refine collector_bind_ne hready.serves _ fun c out _ => ?_
      exact expect_bind_ne fun _ _ => nofun
  | monitor env => exact collector_bind_ne hready.serves _ fun _ _ _ => nofun
  | begin i => exact collector_bind_ne hready.serves _ fun _ _ _ => nofun
  | forward pick poll => exact expect_bind_ne fun _ _ => nofun
  | hearPort i poll ret =>
      refine expect_bind_ne fun x _ => ?_
      obtain ⟨bus, heard⟩ := x
      cases heard with
      | none => exact nofun
      | some h =>
          refine collector_bind_ne hready.serves _ fun c out harrive => ?_
          have hfires : Fires Collector.step s.collector (_, out) c := harrive
          exact collector_bind_ne (hready.serves.step hfires).serves _ fun _ _ _ => nofun
  | hearMonitor a poll okMsg okPayload =>
      refine expect_bind_ne fun x _ => ?_
      obtain ⟨bus, heard⟩ := x
      cases heard with
      | none => exact nofun
      | some h =>
          have hallocates : Bridge.Allocates (.arrive okMsg okPayload (.payload h.payload)) := hl
          exact act_bind_ne (s := ⟨bus, s.collector, s.actuator⟩) (hready.actuator a)
            (hready.functions a) hallocates fun _ => nofun
  | client a okMsg okPayload chunk =>
      have hallocates : Bridge.Allocates (.arrive okMsg okPayload (.chunk chunk)) := hl
      exact act_bind_ne (hready.actuator a) (hready.functions a) hallocates fun _ => nofun
  | app a =>
      have hallocates : Bridge.Allocates .app := trivial
      exact act_bind_ne (hready.actuator a) (hready.functions a) hallocates fun _ => nofun

/-- The listener of a pair's device has begun. -/
def Listens (s : Gateway site) (i : Fin site.ps.length) : Prop :=
  ∃ d, s.collector.devices.cell (site.ps.get i).device = some d ∧ d.running = true

/-- The proxy forwards a waiting message: only the devices it reaches get it. -/
theorem Ready.forward_goes (hready : s.Ready driver) {x : site.Place}
    (hpipe : s.bus.proxy.frontend.pipes x ≠ []) :
    ∃ t rest, Fires Gateway.step s (.forward x (some (true, false)), .quiet) t ∧
      t.collector = s.collector ∧ t.actuator = s.actuator ∧
      (s.bus.proxy.frontend.pipes x).length = rest.length + 2 ∧
      t.bus.proxy.frontend.pipes = Function.update s.bus.proxy.frontend.pipes x rest ∧
      ∀ y, (t.bus.down y).length ≤ (s.bus.down y).length + 2 ∧
        (¬site.bus.Reaches x y → t.bus.down y = s.bus.down y) := by
  obtain ⟨bus, a, b, rest, hstep, hsent, hfs, hpipes, hdown⟩ := hready.lossless.forward_takes hpipe
  obtain ⟨payload, hm⟩ := hready.labelled x _ hsent
  cases hm
  refine ⟨{ s with bus := bus }, rest, ?_, rfl, rfl, by rw [hfs]; rfl, hpipes, fun y => ⟨?_, fun hnot => ?_⟩⟩
  · have hok : s.bus.step site.bus (.forward x (some (true, false))) = some bus := hstep
    simp only [Fires, Gateway.step, hok, Refusal.expect, ok_bind]
  · show (bus.down y).length ≤ _
    rw [hdown y, List.length_append]
    split <;> simp
  · show bus.down y = _
    rw [hdown y, if_neg, List.append_nil]
    rw [BusState.matchesSub_device]
    exact fun hmatch => hnot (List.isPrefixOf_iff_prefix.mp hmatch)

/-- A listener hears a message that waits for its device. -/
theorem Ready.hear_goes (hready : s.Ready driver) {x : site.Place} (hdown : s.bus.down x ≠ []) :
    ∃ bus h rest, s.hear x (some true) = some (bus, some h) ∧
      (s.bus.down x).length = rest.length + 2 ∧ bus.down = Function.update s.bus.down x rest ∧
      bus.proxy = s.bus.proxy := by
  obtain ⟨bus, h, rest, hstep, hiter, hfs, hdown', hproxy⟩ := hready.lossless.listen_takes hdown
  refine ⟨bus, h, rest, ?_, by rw [hfs]; rfl, hdown', hproxy⟩
  have hok : s.bus.step site.bus (.listen x (some true)) = some bus := hstep
  simp only [hear, hiter, hok, Option.bind_eq_bind, Option.bind_some]

/-- The monitor of an actuator hears a message, which the callback queues. -/
theorem Ready.monitor_goes (hready : s.Ready driver) {a : α} (hdown : s.bus.down (.inr a) ≠ [])
    {entries : List (Addr × Arrival)} (hpending : (s.actuator a).Pending entries) :
    ∃ t o rest entries', Fires Gateway.step s (.hearMonitor a (some true) true true, o) t ∧
      t.collector = s.collector ∧ (t.actuator a).Pending entries' ∧
      (t.actuator a).work entries'.length = (s.actuator a).work entries.length + 7 ∧
      (s.bus.down (.inr a)).length = rest.length + 2 ∧
      t.bus.down = Function.update s.bus.down (.inr a) rest ∧ t.bus.proxy = s.bus.proxy := by
  obtain ⟨bus, h, rest, hhear, hlen, hdown', hproxy⟩ := hready.hear_goes hdown
  obtain ⟨bridge, harrive, hpending', hphase, -, -⟩ :=
    hpending.arrive site.nodes site.messages (site.code a) (.payload h.payload)
  refine ⟨⟨bus, s.collector, Function.update s.actuator a bridge⟩, .arrived a (.payload h.payload), rest,
    entries ++ [(site.messages.addr (s.actuator a).messages, .payload h.payload)], ?_, rfl, ?_, ?_, hlen,
    hdown', hproxy⟩
  · simp only [Fires, Gateway.step, hhear, Refusal.expect, ok_bind, act, harrive, Refusal.lift,
      BridgeOut.forward?]
  · show (Function.update s.actuator a bridge a).Pending _
    rw [Function.update_self]
    exact hpending'
  · show (Function.update s.actuator a bridge a).work _ = _
    rw [Function.update_self, Bridge.work, Bridge.work, hphase, List.length_append, List.length_singleton]
    omega

/-- The listener of a pair's device hears a message, which the callback hands to the port. -/
theorem Ready.port_goes (hready : s.Ready driver) {i : Fin site.ps.length} (hlistens : s.Listens i)
    (hdown : s.bus.down (.inl i) ≠ []) :
    ∃ t o rest, Fires Gateway.step s (.hearPort i (some true) 0, o) t ∧ t.Listens i ∧
      t.actuator = s.actuator ∧ (s.bus.down (.inl i)).length = rest.length + 2 ∧
      t.bus.down = Function.update s.bus.down (.inl i) rest ∧ t.bus.proxy = s.bus.proxy := by
  obtain ⟨bus, h, rest, hhear, hlen, hdown', hproxy⟩ := hready.hear_goes hdown
  obtain ⟨d, hd, hrunning⟩ := hlistens
  let c : Collector := { s.collector with
    south := Function.update s.collector.south (site.ps.get i).device
      (s.collector.south (site.ps.get i).device ++ frames h.msg) }
  have harrive : s.collector.step (.arrive (site.ps.get i).device h.msg) = .ok (c, .quiet) := rfl
  have hfires : Fires Collector.step s.collector (_, .quiet) c := harrive
  have hserves : c.Serves site.ps := (hready.serves.step hfires).serves
  have hthread : c.threads[i.val]? = some (some (site.ps.get i).device) := by
    rw [hserves.threads, List.getElem?_map, List.getElem?_eq_getElem i.isLt]
    rfl
  obtain ⟨e, he, hfor⟩ := hserves.devices _ (List.get_mem site.ps i)
  have hsame : e = d := Option.some.inj (he.symm.trans hd)
  subst hsame
  obtain ⟨a, ctx, -, -, -, hwrite⟩ :=
    hserves.onClientRecv (List.get_mem site.ps i) hfor h.payload 0
  obtain ⟨c', out, hlisten, hdevices⟩ : ∃ c' out,
      c.step (.listen i ⟨some true, true, true⟩ 0) = .ok (c', out) ∧ c'.devices = c.devices := by
    simp only [Collector.step, hthread, Heap.deref_of_cell he, Refusal.lift, ok_bind,
      eDeviceListenIteration, hrunning, if_true, c, Function.update_self, hready.south, List.nil_append,
      listenIteration, Heard.msg, frames_pair, recvPair, zmqMsgRecv, recvFrame, Option.map_some,
      Option.bind_eq_bind, Option.bind_some, hfor.cb, hwrite]
    exact ⟨_, _, rfl, rfl⟩
  refine ⟨⟨bus, c', s.actuator⟩, .wrote i h.payload out.written?, rest, ?_, ⟨e, ?_, hrunning⟩, rfl, hlen,
    hdown', hproxy⟩
  · simp only [Fires, Gateway.step, hhear, Refusal.expect, ok_bind, harrive, hlisten]
  · show c'.devices.cell _ = _
    rw [hdevices]
    exact he

/-- A send puts at most one message of two frames into the pipe of its device. -/
theorem sends_pipe (bus : BusState site.Place) (x : site.Place) (msg : Bytes)
    (hnorth : (bus.north x).pending = []) :
    ∃ bus' k, bus.step site.bus (.send x msg) = some bus' ∧ k ≤ 2 ∧ bus'.down = bus.down ∧
      (bus'.proxy.frontend.pipes x).length = (bus.proxy.frontend.pipes x).length + k ∧
      ∀ y, y ≠ x → bus'.proxy.frontend.pipes y = bus.proxy.frontend.pipes y := by
  obtain ⟨bus', hstep⟩ : ∃ bus', bus.step site.bus (.send x msg) = some bus' := ⟨_, rfl⟩
  by_cases hmsg : msg = []
  · refine ⟨bus', 0, hstep, Nat.zero_le 2, ?_⟩
    rw [BusState.step, eCommonSend_refused _ _ (Or.inr (by rw [hmsg]))] at hstep
    cases hstep
    exact ⟨rfl, by simp, fun y hy => Function.update_of_ne hy _ _⟩
  · refine ⟨bus', 2, hstep, le_refl 2, ?_⟩
    rw [BusState.step, eCommonSend_some _ _ hmsg, hnorth] at hstep
    cases hstep
    exact ⟨rfl, by simp, fun y hy => Function.update_of_ne hy _ _⟩

/-- An actuator goes on. What it sends to its monitor is one message more to forward. -/
theorem Ready.app_goes (hready : s.Ready driver) {a : α} {entries : List (Addr × Arrival)}
    (hpending : (s.actuator a).Pending entries)
    (hbusy : entries ≠ [] ∨ (s.actuator a).phase ≠ .test) :
    ∃ t o entries' k, Fires Gateway.step s (.app a, o) t ∧ t.collector = s.collector ∧
      (t.actuator a).Pending entries' ∧
      (t.actuator a).work entries'.length + 2 * k < (s.actuator a).work entries.length ∧
      t.bus.down = s.bus.down ∧
      (t.bus.proxy.frontend.pipes (.inr a)).length =
        (s.bus.proxy.frontend.pipes (.inr a)).length + k ∧
      ∀ x, x ≠ .inr a → t.bus.proxy.frontend.pipes x = s.bus.proxy.frontend.pipes x := by
  obtain ⟨bridge, out, entries', hstep, hpending', -, hwork⟩ :=
    hpending.advance (drives_of_functions (hready.actuator a).2 (hready.functions a) _) hbusy site.nodes
      site.messages
  have hsame : ∀ bus : BusState site.Place,
      (⟨bus, s.collector, Function.update s.actuator a bridge⟩ : Gateway site).actuator a = bridge :=
    fun bus => Function.update_self a bridge s.actuator
  cases hout : out.forward? with
  | none =>
      refine ⟨⟨s.bus, s.collector, Function.update s.actuator a bridge⟩, .quiet, entries', 0, ?_, rfl, ?_,
        ?_, rfl, rfl, fun _ _ => rfl⟩
      · simp only [Fires, Gateway.step, act, hstep, Refusal.lift, ok_bind, hout, GatewayOut.ofForward]
      · rw [hsame]
        exact hpending'
      · rw [hsame]
        omega
  | some what =>
      have hpassed : out ≠ .quiet := by
        rintro rfl
        cases hout
      rw [if_neg hpassed] at hwork
      cases what with
      | broadcast bytes =>
          refine ⟨⟨s.bus, s.collector, Function.update s.actuator a bridge⟩,
            .passed a (.broadcast bytes), entries', 0, ?_, rfl, ?_, ?_, rfl, rfl, fun _ _ => rfl⟩
          · simp only [Fires, Gateway.step, act, hstep, Refusal.lift, ok_bind, hout,
              GatewayOut.ofForward]
          · rw [hsame]
            exact hpending'
          · rw [hsame]
            omega
      | monitorSend bytes =>
          obtain ⟨⟨up, hup⟩, -⟩ := hready.lossless
          obtain ⟨bus, k, hsend, hk, hdown, hpipe, hothers⟩ :=
            sends_pipe s.bus (.inr a) bytes (by rw [hup.north])
          refine ⟨⟨bus, s.collector, Function.update s.actuator a bridge⟩,
            .passed a (.monitorSend bytes), entries', k, ?_, rfl, ?_, ?_, hdown, hpipe, hothers⟩
          · simp only [Fires, Gateway.step, act, hstep, Refusal.lift, ok_bind, hout, hsend,
              Refusal.expect, GatewayOut.ofForward]
          · rw [hsame]
            exact hpending'
          · rw [hsame]
            omega

/-- The listener of a pair's device can begin. -/
theorem Ready.begin_goes (hready : s.Ready driver) (i : Fin site.ps.length) :
    ∃ t, Fires Gateway.step s (.begin i, .quiet) t ∧ t.Listens i := by
  have hthread : s.collector.threads[i.val]? = some (some (site.ps.get i).device) := by
    rw [hready.serves.threads, List.getElem?_map, List.getElem?_eq_getElem i.isLt]
    rfl
  obtain ⟨d, hd, hfor⟩ := hready.serves.devices _ (List.get_mem site.ps i)
  have hbegin : s.collector.step (.begin i) = .ok ({ s.collector with
      devices := s.collector.devices.set (site.ps.get i).device { d with running := true } },
      .quiet) := by
    simp only [Collector.step, hthread, Heap.deref_of_cell hd, Heap.store_of_cell hd,
      eDeviceListenStart_of_cb hfor.cb, Refusal.lift, ok_bind]
  refine ⟨{ s with collector := { s.collector with
      devices := s.collector.devices.set (site.ps.get i).device { d with running := true } } }, ?_,
    { d with running := true }, ?_, rfl⟩
  · simp only [Fires, Gateway.step, hbegin, ok_bind]
  · show (s.collector.devices.set _ _).cell _ = _
    rw [Heap.set_cell, if_pos rfl]

/-! ### To rest -/

/-- Nothing is under way between a port and an actuator, and app_main_thread has nothing to pass on. -/
structure Rests (s : Gateway site) (i : Fin site.ps.length) (a : α) : Prop where
  pipes : s.bus.proxy.frontend.pipes (.inl i) = [] ∧ s.bus.proxy.frontend.pipes (.inr a) = []
  down : s.bus.down (.inl i) = [] ∧ s.bus.down (.inr a) = []
  pending : (s.actuator a).Pending []

/-- How far the port and the actuator are from rest. Each frame counts for the steps it has before it. -/
def load (s : Gateway site) (i : Fin site.ps.length) (a : α) (n : Nat) : Nat :=
  5 * (s.bus.proxy.frontend.pipes (.inl i)).length + 4 * (s.bus.down (.inr a)).length +
    (s.actuator a).work n + 2 * (s.bus.proxy.frontend.pipes (.inr a)).length +
    (s.bus.down (.inl i)).length

/-- **Progress.** Short of rest, some step brings the port and the actuator closer to it. -/
theorem Ready.progress (hapart : site.Apart) (hready : s.Ready driver) {i : Fin site.ps.length}
    (hlistens : s.Listens i) {a : α} {entries : List (Addr × Arrival)}
    (hpending : (s.actuator a).Pending entries) :
    s.Rests i a ∨ ∃ lo t entries', Fires Gateway.step s lo t ∧ lo.1.Internal ∧ t.Listens i ∧
      (t.actuator a).Pending entries' ∧ t.load i a entries'.length < s.load i a entries.length := by
  have hself : ∀ x, ¬site.bus.Reaches x x := fun x hreaches =>
    ((Site.reaches_iff hapart x x).mp hreaches).2 rfl
  have hlistens_of : ∀ {t : Gateway site}, t.collector = s.collector → t.Listens i := by
    intro t hsame
    rw [Listens, hsame]
    exact hlistens
  by_cases hport : s.bus.proxy.frontend.pipes (.inl i) = []
  · by_cases hmonitor : s.bus.down (.inr a) = []
    · by_cases hbusy : entries ≠ [] ∨ (s.actuator a).phase ≠ .test
      · obtain ⟨t, o, entries', k, hstep, hcollector, hpending', hwork, hdown, hpipe, hothers⟩ :=
          hready.app_goes hpending hbusy
        refine Or.inr ⟨_, t, entries', hstep, trivial, hlistens_of hcollector, hpending', ?_⟩
        rw [load, load, hdown, hpipe, hothers _ (by simp)]
        omega
      · by_cases hsends : s.bus.proxy.frontend.pipes (.inr a) = []
        · by_cases hdown : s.bus.down (.inl i) = []
          · obtain ⟨hnil, -⟩ := not_or.mp hbusy
            rw [not_not.mp hnil] at hpending
            exact Or.inl ⟨⟨hport, hsends⟩, ⟨hdown, hmonitor⟩, hpending⟩
          · obtain ⟨t, o, rest, hstep, hlistens', hactuator, hlen, hdown', hproxy⟩ :=
              hready.port_goes hlistens hdown
            rw [← hactuator] at hpending
            refine Or.inr ⟨_, t, entries, hstep, trivial, hlistens', hpending, ?_⟩
            rw [load, load, hactuator, hproxy, hdown', hlen, Function.update_self,
              Function.update_of_ne (by simp)]
            omega
        · obtain ⟨t, rest, hstep, hcollector, hactuator, hlen, hpipes, hdown⟩ :=
            hready.forward_goes hsends
          rw [← hactuator] at hpending
          refine Or.inr ⟨_, t, entries, hstep, trivial, hlistens_of hcollector, hpending, ?_⟩
          have hle := (hdown (.inl i)).1
          rw [load, load, hactuator, hpipes, hlen, (hdown (.inr a)).2 (hself _), Function.update_self,
            Function.update_of_ne (by simp)]
          omega
    · obtain ⟨t, o, rest, entries', hstep, hcollector, hpending', hwork, hlen, hdown, hproxy⟩ :=
        hready.monitor_goes hmonitor hpending
      refine Or.inr ⟨_, t, entries', hstep, trivial, hlistens_of hcollector, hpending', ?_⟩
      rw [load, load, hwork, hproxy, hdown, hlen, Function.update_self, Function.update_of_ne (by simp)]
      omega
  · obtain ⟨t, rest, hstep, hcollector, hactuator, hlen, hpipes, hdown⟩ := hready.forward_goes hport
    rw [← hactuator] at hpending
    refine Or.inr ⟨_, t, entries, hstep, trivial, hlistens_of hcollector, hpending, ?_⟩
    have hle := (hdown (.inr a)).1
    rw [load, load, hactuator, hpipes, hlen, (hdown (.inl i)).2 (hself _), Function.update_self,
      Function.update_of_ne (by simp)]
    omega

theorem Ready.comes_to_rest (hapart : site.Apart) (hready : s.Ready driver)
    (i : Fin site.ps.length) (a : α) :
    ∃ los u, Run (Fires Gateway.step) s los u ∧ (∀ lo ∈ los, lo.1.Internal) ∧ u.Rests i a := by
  obtain ⟨t, hbegin, hlistens⟩ := hready.begin_goes i
  obtain ⟨entries, hpending⟩ := ((hready.step hbegin).actuator a).1
  obtain ⟨los, u, hrun, hinternal, hrests⟩ := Run.exists_of_progress
    (R := fun s n => Ready driver s ∧ s.Listens i ∧
      ∃ entries, (s.actuator a).Pending entries ∧ s.load i a entries.length = n)
    (P := fun lo : GatewayLabel site × GatewayOut site => lo.1.Internal) (Q := fun s => s.Rests i a)
    (by
      rintro s n ⟨hready, hlistens, entries, hpending, rfl⟩
      rcases hready.progress hapart hlistens hpending with hrests |
        ⟨lo, t, entries', hstep, hinternal, hlistens', hpending', hlt⟩
      · exact Or.inl hrests
      · exact Or.inr ⟨lo, t, _, hstep, hinternal,
          ⟨hready.step hstep, hlistens', entries', hpending', rfl⟩, hlt⟩)
    ⟨hready.step hbegin, hlistens, entries, hpending, rfl⟩
  exact ⟨_, u, .cons hbegin hrun, List.forall_mem_cons.mpr ⟨trivial, hinternal⟩, hrests⟩

omit [DecidableEq α] in
theorem chunks_append (as bs : List Arrival) : chunks (as ++ bs) = chunks as ++ chunks bs :=
  List.filterMap_append

/-- An internal step reads nothing from a port or a client. -/
theorem internal_reads {lo : GatewayLabel site × GatewayOut site} (hstep : Fires step s lo t)
    (hinternal : lo.1.Internal) (a : α) : lo.2.receives = [] ∧ chunks (lo.2.arrivals a) = [] := by
  obtain ⟨l, o⟩ := lo
  cases l with
  | reader | monitor | client => exact absurd hinternal not_false
  | begin i =>
      obtain ⟨⟨c, out⟩, -, hok⟩ := bind_eq_ok hstep
      cases hok
      exact ⟨rfl, rfl⟩
  | forward pick poll =>
      obtain ⟨bus, -, hok⟩ := bind_eq_ok hstep
      cases hok
      exact ⟨rfl, rfl⟩
  | hearPort i poll ret =>
      obtain ⟨⟨bus, heard⟩, -, hrest⟩ := bind_eq_ok hstep
      cases heard with
      | none =>
          cases hrest
          exact ⟨rfl, rfl⟩
      | some h =>
          obtain ⟨⟨c, out₁⟩, harrive, hrest⟩ := bind_eq_ok hrest
          obtain ⟨⟨c', out⟩, hlisten, hok⟩ := bind_eq_ok hrest
          cases hok
          exact ⟨rfl, rfl⟩
  | hearMonitor b poll okMsg okPayload =>
      obtain ⟨⟨bus, heard⟩, -, hrest⟩ := bind_eq_ok hstep
      cases heard with
      | none =>
          cases hrest
          exact ⟨rfl, rfl⟩
      | some h =>
          obtain ⟨⟨u, fwd⟩, hact, hok⟩ := bind_eq_ok hrest
          cases hok
          refine ⟨rfl, ?_⟩
          by_cases hab : a = b <;> simp [GatewayOut.arrivals, chunks, hab, Arrival.chunk?]
  | app b =>
      obtain ⟨⟨u, what⟩, hact, hok⟩ := bind_eq_ok hstep
      cases hok
      cases what <;> exact ⟨rfl, rfl⟩

theorem internal_run (hrun : Run (Fires step) s los t) (hinternal : ∀ lo ∈ los, lo.1.Internal)
    (a : α) :
    shown GatewayOut.receives los = [] ∧ chunks (shown (fun o => o.arrivals a) los) = [] := by
  induction hrun with
  | nil => exact ⟨rfl, rfl⟩
  | cons hstep _ ih =>
      rw [List.forall_mem_cons] at hinternal
      obtain ⟨hreceives, hchunks⟩ := internal_reads hstep hinternal.1 a
      obtain ⟨hreceives', hchunks'⟩ := ih hinternal.2
      constructor
      · rw [shown, List.flatMap_cons, hreceives]
        exact hreceives'
      · rw [shown, List.flatMap_cons, chunks_append, hchunks]
        exact hchunks'

/-- An internal step leaves the descriptors of the ports alone. -/
theorem internal_system {lo : GatewayLabel site × GatewayOut site} (hstep : Fires step s lo t)
    (hinternal : lo.1.Internal) : t.collector.system = s.collector.system := by
  obtain ⟨l, o⟩ := lo
  cases l with
  | reader | monitor | client => exact absurd hinternal not_false
  | begin i =>
      obtain ⟨⟨c, out⟩, hbegin, hok⟩ := bind_eq_ok hstep
      cases hok
      exact system_of_step hbegin (by simp) (by simp)
  | forward pick poll =>
      obtain ⟨bus, -, hok⟩ := bind_eq_ok hstep
      cases hok
      rfl
  | hearPort i poll ret =>
      obtain ⟨⟨bus, heard⟩, -, hrest⟩ := bind_eq_ok hstep
      cases heard with
      | none =>
          cases hrest
          rfl
      | some h =>
          obtain ⟨⟨c, out₁⟩, harrive, hrest⟩ := bind_eq_ok hrest
          obtain ⟨⟨c', out⟩, hlisten, hok⟩ := bind_eq_ok hrest
          cases hok
          exact (system_of_step hlisten (by simp) (by simp)).trans
            (system_of_step harrive (by simp) (by simp))
  | hearMonitor b poll okMsg okPayload =>
      obtain ⟨⟨bus, heard⟩, -, hrest⟩ := bind_eq_ok hstep
      cases heard with
      | none =>
          cases hrest
          rfl
      | some h =>
          obtain ⟨⟨u, fwd⟩, hact, hok⟩ := bind_eq_ok hrest
          cases hok
          exact congrArg Collector.system (act_spec hact).1
  | app b =>
      obtain ⟨⟨u, what⟩, hact, hok⟩ := bind_eq_ok hstep
      cases hok
      exact congrArg Collector.system (act_spec hact).1

/-- The port has a context of its own, and what is heard for it in these steps goes whole to the
descriptor of this context, unless the port is closed. -/
def HandsOver (s : Gateway site) (i : Fin site.ps.length)
    (los : List (GatewayLabel site × GatewayOut site)) : Prop :=
  ∃ a ctx, s.collector.system.manager.ctxs.cell a = some ctx ∧
    ctx.ser.uid = some (site.uid (.inl i)) ∧
    (∀ b d, s.collector.system.manager.ctxs.cell b = some d →
      d.ser.uid = some (site.uid (.inl i)) → b = a) ∧
    ∀ x ∈ shown (fun o => o.writes i) los,
      x.2 = if x.1 = [] ∨ ctx.fd < 0 then none else some (ctx.fd, x.1)

theorem Ready.hands_over (hready : s.Ready driver) (hrun : Run (Fires Gateway.step) s los t)
    (hinternal : ∀ lo ∈ los, lo.1.Internal) (i : Fin site.ps.length) : s.HandsOver i los := by
  obtain ⟨a, ctx, hctx, hser, -⟩ := hready.serves.ctx_of_pair (List.get_mem site.ps i)
  have huid : ctx.ser.uid = some (site.uid (.inl i)) :=
    (congrArg SerialConfig.uid hser).trans (site.collects i).2
  refine ⟨a, ctx, hctx, huid, fun b d hd hd' => ?_, ?_⟩
  · exact hready.serves.ctx_unique hd hctx (hd'.trans huid.symm)
  induction hrun with
  | nil => exact fun x hx => absurd hx List.not_mem_nil
  | @cons s v t lo los hstep _ ih =>
      rw [List.forall_mem_cons] at hinternal
      have hsame := internal_system hstep hinternal.1
      intro x hx
      rw [shown, List.flatMap_cons, List.mem_append] at hx
      rcases hx with hx | hx
      · obtain ⟨l, o⟩ := lo
        cases o with
        | quiet | received | arrived | passed => exact absurd hx List.not_mem_nil
        | wrote j payload written =>
            dsimp only [GatewayOut.writes] at hx
            split at hx
            · next hij =>
                subst hij
                obtain ⟨b, d, hd, hd', hwritten⟩ :=
                  (step_hands hready.serves hready.south hstep).1 i payload written rfl
                have hb := hready.serves.ctx_unique hd hctx (hd'.trans huid.symm)
                rw [hb, hctx] at hd
                cases hd
                rw [List.mem_singleton.mp hx]
                exact hwritten
            · exact absurd hx List.not_mem_nil
      · exact ih (hready.step hstep) hinternal.2 (by rw [hsame]; exact hctx) x hx

omit [DecidableEq α] in
theorem Rests.pending_nil {i : Fin site.ps.length} {a : α} (hrests : s.Rests i a)
    {entries : List (Addr × Arrival)} (hpending : (s.actuator a).Pending entries) : entries = [] := by
  obtain ⟨queued, hahead, hholds⟩ := hpending.queued
  obtain ⟨queued₀, hahead₀, hholds₀⟩ := hrests.pending.queued
  have hsize := hholds.size
  rw [hholds₀.size, List.length_map, List.length_map] at hsize
  cases hphase : (s.actuator a).phase with
  | test =>
      rw [hphase] at hahead hahead₀
      obtain rfl : entries = queued := hahead
      obtain rfl : [] = queued₀ := hahead₀
      exact List.eq_nil_of_length_eq_zero (Int.ofNat.inj hsize).symm
  | pop =>
      rw [hphase] at hahead₀
      exact absurd hahead₀.1.symm hahead₀.2
  | holding msg =>
      rw [hphase] at hahead₀
      obtain ⟨e, hnil, -⟩ := hahead₀
      cases hnil

/-- **Everything gets through.** From every state of every run, steps with which nothing comes in lead to
one in which everything that was read at the port has been broadcast by the actuator of its uid, and
everything that was read from the clients of an actuator that has its uid alone, heard for the port; what
these steps hear for it is handed whole to the descriptor the port has, if it is open. -/
theorem gateway_delivers_all (hapart : site.Apart)
    (hfunctions : ∀ a, Bridge.HasFunctions (site.code a) (driver a)) (hstart : s.Starts driver)
    (hrun : Run (Fires step) s los t) {i : Fin site.ps.length} {a : α}
    (huid : site.uid (.inl i) = site.uid (.inr a)) :
    ∃ los' u, Run (Fires step) t los' u ∧ (∀ lo ∈ los', lo.1.Internal) ∧
      (∀ g, Computes (site.code a) (driver a).northTransform g →
        broadcasts (shown (fun o => o.forwards a) (los ++ los')) =
          (chunksRead (site.uid (.inl i)) (shown GatewayOut.receives los)).map g) ∧
      ((∀ b, site.uid (.inr b) = site.uid (.inr a) → b = a) →
        ∀ g, Computes (site.code a) (driver a).southTransform g →
          (shown (fun o => o.writes i) (los ++ los')).map Prod.fst =
            ((chunks (shown (fun o => o.arrivals a) los)).map g).filter (· ≠ [])) ∧
      t.HandsOver i los' := by
  have hready : t.Ready driver :=
    hrun.invariant (fun _ _ _ hs hstep => Ready.step hs hstep) (hstart.ready hfunctions)
  obtain ⟨los', u, hrun', hinternal, hrests⟩ := hready.comes_to_rest hapart i a
  obtain ⟨entries, hpending, hrelays⟩ := hstart.relays hapart (hrun.append hrun') huid
  obtain ⟨hreceives, hchunks⟩ := internal_run hrun' hinternal a
  obtain rfl := hrests.pending_nil hpending
  refine ⟨los', u, hrun', hinternal, fun g hg => ?_, fun hsole g hg => ?_,
    hready.hands_over hrun' hinternal i⟩
  · have hnorth := hrelays.north g hg
    rw [BusState.underWay, hrests.down.2, hrests.pipes.1, shown_append GatewayOut.receives, hreceives,
      List.append_nil] at hnorth
    exact (List.append_nil _).symm.trans hnorth
  · have hsouth := hrelays.south hsole g hg
    rw [BusState.underWay, hrests.down.1, hrests.pipes.2, shown_append fun o => o.arrivals a,
      chunks_append, hchunks, List.append_nil] at hsouth
    refine Eq.trans ?_ hsouth
    exact ((List.append_nil _).trans (List.append_nil _)).symm

end Gateway

/-- What the reversing plugin makes of a payload that goes north. -/
def reversed (bytes : Bytes) : Bytes := if bytes = [0] then [] else bytes.reverse

theorem computes_reversed : Computes Bridge.reversing (some 1) reversed := by
  intro memory bytes
  simp only [transformed, Bridge.reversing, if_true, reversed]
  by_cases hzero : bytes = [0]
  · rw [if_pos hzero, if_pos hzero]
    rfl
  · rw [if_neg hzero, if_neg hzero]
    rfl

/-- A payload in hand and a chunk in the queue get through, the chunk to the port's descriptor. -/
theorem gateway_delivers_all_sample : ∃ (s t : Gateway sampleSite) (los' : _) (u : Gateway sampleSite),
    s.Starts (fun _ => ⟨some 1, none⟩) ∧
      Run (Fires Gateway.step) s (sampleGatewayRun.zip sampleGatewayOuts |>.take 11) t ∧
      Run (Fires Gateway.step) t los' u ∧ (∀ lo ∈ los', lo.1.Internal) ∧
      broadcasts (shown (fun o => o.forwards ()) los') = [[2, 1]] ∧
      shown (fun o => o.writes samplePort) los' = [([7], some (3, [7]))] := by
  obtain ⟨s, -, t, hstart, -, hrun, -, ctx, hctx, huid', hfd⟩ := sampleGateway_starts
  have huid : sampleSite.uid (.inl samplePort) = sampleSite.uid (.inr ()) := rfl
  obtain ⟨los', u, hrun', hinternal, hnorth, hsouth, a, ctx', hctx', -, hsole, hhands⟩ :=
    Gateway.gateway_delivers_all sampleSite_apart sampleSite_functions hstart hrun huid
  have hbroadcasts := hnorth reversed computes_reversed
  have hwrites := hsouth (fun _ _ => rfl) id (fun _ _ => rfl)
  rw [shown_append] at hbroadcasts hwrites
  refine ⟨s, t, los', u, hstart, hrun, hrun', hinternal, hbroadcasts, ?_⟩
  have hfst : (shown (fun o => o.writes samplePort) los').map Prod.fst = [[7]] := hwrites
  obtain ⟨x, hx, hpayload⟩ := List.map_eq_singleton_iff.mp hfst
  have hwritten := hhands x (by rw [hx]; exact List.mem_singleton_self x)
  have hsame : 0 = a := hsole 0 ctx hctx huid'
  rw [← hsame, hctx] at hctx'
  cases hctx'
  rw [hpayload, hfd] at hwritten
  rw [hx]
  exact congrArg (fun y => [y]) (Prod.ext hpayload hwritten)

end LibEzmb
