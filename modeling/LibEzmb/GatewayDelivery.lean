import LibEzmb.GatewayRuns
import LibEzmb.GatewayStart

/-! From end to end: the chunks read from a port come out at the TCP clients of the actuators with its
uid, and the chunks read from these clients at the port. -/

open CHeap CBytes KeyedLists Multipart Runs

namespace LibEzmb

variable {α π : Type}

/-! ### The pairs of the site -/

theorem eq_of_nodup_map {β γ : Type} {xs : List γ} {f : γ → β} (hnodup : (xs.map f).Nodup)
    {i j : Fin xs.length} (heq : f (xs.get i) = f (xs.get j)) : i = j := by
  have hi : i.val < (xs.map f).length := by simp
  have hj : j.val < (xs.map f).length := by simp
  have hget : (xs.map f)[i.val] = (xs.map f)[j.val] := by simpa using heq
  exact Fin.ext (hnodup.getElem_inj_iff.mp hget)

namespace Collector.Serves

variable {ps : List Pairing} {c : Collector}

/-- The manager keeps the uids of the pairs apart. -/
theorem nodup_uids (hs : c.Serves ps) : (ps.map fun p => p.config.uid).Nodup := by
  obtain ⟨w, -, hmap⟩ := hs.ports
  have hkeys : w.keys = ps.map fun p => p.config.uid := by
    calc w.keys = (w.items.map fun p => p.ctx.unopened).map fun c => c.ser.uid := by
          rw [List.map_map]
          rfl
      _ = ps.map fun p => p.config.uid := by
          rw [hmap, List.map_map]
          rfl
  rw [← hkeys]
  exact w.nodup

theorem eq_of_device (hs : c.Serves ps) {i j : Fin ps.length}
    (hdevice : (ps.get i).device = (ps.get j).device) : i = j :=
  eq_of_nodup_map (nodup_devices hs hs.nodup_uids) hdevice

theorem eq_of_uid (hs : c.Serves ps) {i j : Fin ps.length}
    (huid : (ps.get i).config.uid = (ps.get j).config.uid) : i = j :=
  eq_of_nodup_map (f := fun p : Pairing => p.config.uid) hs.nodup_uids huid

end Collector.Serves

namespace Site

variable {site : Site α π} {c : Collector}

theorem pairOf_device (hs : c.Serves site.ps) (i : Fin site.ps.length) :
    site.pairOf (site.ps.get i).device = some i := by
  cases hfind : site.pairOf (site.ps.get i).device with
  | none =>
      have hnot := List.find?_eq_none.mp hfind i (List.mem_finRange i)
      simp at hnot
  | some j =>
      have hdevice := List.find?_some hfind
      rw [hs.eq_of_device (of_decide_eq_true hdevice)]

/-- Who hears whom: the ports and the actuators of one uid. -/
theorem reaches_iff (hapart : site.Apart) (x y : site.Place) :
    site.bus.Reaches x y ↔
      site.uid y = site.uid x ∧ (site.bus.device y).type ≠ (site.bus.device x).type :=
  site.bus.reaches_iff (hapart.room y) (hapart.apart y x)

/-- Only the port with the uid of an actuator reaches it. -/
theorem only_port (hapart : site.Apart) (hs : c.Serves site.ps) {i : Fin site.ps.length} {a : α}
    (huid : site.uid (.inl i) = site.uid (.inr a)) (x : site.Place) :
    site.bus.Reaches x (.inr a) ↔ x = .inl i := by
  rw [reaches_iff hapart, site.monitors a]
  constructor
  · rintro ⟨hsame, htype⟩
    cases x with
    | inl j =>
        have hj : (site.ps.get j).config.uid = (site.ps.get i).config.uid := by
          rw [(site.collects j).2, (site.collects i).2]
          exact congrArg some (hsame.symm.trans huid.symm)
        rw [hs.eq_of_uid hj]
    | inr b => exact absurd (site.monitors b).symm htype
  · rintro rfl
    refine ⟨huid.symm, ?_⟩
    rw [(site.collects i).1]
    exact EDeviceType.noConfusion

/-- Only an actuator that no other shares its uid with reaches the port. -/
theorem only_actuator (hapart : site.Apart) {i : Fin site.ps.length} {a : α}
    (huid : site.uid (.inl i) = site.uid (.inr a))
    (hsole : ∀ b, site.uid (.inr b) = site.uid (.inr a) → b = a) (x : site.Place) :
    site.bus.Reaches x (.inl i) ↔ x = .inr a := by
  rw [reaches_iff hapart, (site.collects i).1]
  constructor
  · rintro ⟨hsame, htype⟩
    cases x with
    | inl j => exact absurd (site.collects j).1.symm htype
    | inr b => rw [hsole b (hsame.symm.trans huid)]
  · rintro rfl
    refine ⟨huid, ?_⟩
    rw [site.monitors a]
    exact EDeviceType.noConfusion

end Site

/-! ### The chunks of a port -/

/-- The chunks that were read from the port with a uid. -/
def chunksRead (uid : CStr) (rs : List Received) : List Bytes :=
  (rs.filter fun r => r.uid = some uid).map Received.chunk

/-- No callback gets an empty chunk. -/
theorem forwards_chunk {ps : List Pairing} {north north' : Addr → OutSocket} {rs : List Received}
    (hrun : Run (Forwards ps) north rs north') : ∀ r ∈ rs, r.chunk ≠ [] := by
  induction hrun with
  | nil => simp
  | cons hstep _ ih =>
      obtain ⟨p, -, d, sock, rc, -, -, -, hchunk, -⟩ := hstep
      rw [List.forall_mem_cons]
      exact ⟨hchunk, ih⟩

variable [DecidableEq α]

namespace Gateway

variable {site : Site α π} {s t : Gateway site} {los : List (GatewayLabel site × GatewayOut site)}

theorem shown_sends_port (i : Fin site.ps.length) :
    shown (fun o => o.sends (.inl i)) los =
      (((shown GatewayOut.receives los).filter fun r => site.pairOf r.device = some i).map
        Received.chunk).filter (· ≠ []) := by
  rw [shown, shown, List.filter_flatMap, List.map_flatMap, List.filter_flatMap]
  congr 1
  funext lo
  rcases lo with ⟨-, _ | _ | _ | _ | ⟨b, _ | _⟩⟩ <;> rfl

theorem shown_sends_actuator (a : α) :
    shown (fun o => o.sends (.inr a)) los =
      (monitorSends (shown (fun o => o.forwards a) los)).filter (· ≠ []) := by
  rw [shown, shown, monitorSends, List.filterMap_flatMap, List.filter_flatMap]
  congr 1
  funext lo
  rcases lo with ⟨-, _ | _ | _ | _ | ⟨b, _ | bytes⟩⟩
  · rfl
  · rfl
  · rfl
  · rfl
  · by_cases hab : a = b <;> simp [GatewayOut.sends, GatewayOut.forwards, hab, Forward.monitorSend?]
  · by_cases hab : a = b <;> by_cases hbytes : bytes = [] <;>
      simp [GatewayOut.sends, GatewayOut.forwards, hab, hbytes, Forward.monitorSend?]

theorem shown_hears_port (i : Fin site.ps.length) :
    shown (fun o => o.hears (.inl i)) los =
      (shown (fun o => o.writes i) los).map Prod.fst := by
  rw [shown, shown, List.map_flatMap]
  congr 1
  funext lo
  rcases lo with ⟨-, _ | _ | ⟨j, payload, written⟩ | ⟨b, _ | _⟩ | _⟩
  · rfl
  · rfl
  · by_cases hij : i = j <;> simp [GatewayOut.hears, GatewayOut.writes, hij]
  · rfl
  · rfl
  · rfl

theorem shown_hears_actuator (a : α) :
    shown (fun o => o.hears (.inr a)) los = payloads (shown (fun o => o.arrivals a) los) := by
  rw [shown, shown, payloads, List.filterMap_flatMap]
  congr 1
  funext lo
  rcases lo with ⟨-, _ | _ | _ | ⟨b, bytes | bytes⟩ | _⟩
  · rfl
  · rfl
  · rfl
  · by_cases hab : a = b <;> simp [GatewayOut.hears, GatewayOut.arrivals, hab, Arrival.payload?]
  · by_cases hab : a = b <;> simp [GatewayOut.hears, GatewayOut.arrivals, hab, Arrival.payload?]
  · rfl

/-- What a port sends are the chunks read from it. -/
theorem sends_port (hserves : s.collector.Serves site.ps) (hrun : Run (Fires step) s los t)
    (i : Fin site.ps.length) :
    shown (fun o => o.sends (.inl i)) los =
      chunksRead (site.uid (.inl i)) (shown GatewayOut.receives los) := by
  obtain ⟨clos, hcollector, hreceived⟩ := run_collector hrun
  obtain ⟨-, -, hforwards⟩ := hserves.run hcollector
  rw [hreceived] at hforwards
  rw [shown_sends_port, chunksRead]
  have hsame : ((shown GatewayOut.receives los).filter fun r => site.pairOf r.device = some i) =
      (shown GatewayOut.receives los).filter fun r => r.uid = some (site.uid (.inl i)) := by
    refine List.filter_congr fun r hr => ?_
    obtain ⟨p, hp, hruid, hrdevice⟩ := forwards_placed hforwards r hr
    obtain ⟨j, rfl⟩ := List.get_of_mem hp
    rw [hrdevice, hruid, decide_eq_decide]
    have hpair := Site.pairOf_device hserves j
    have hport : (site.ps.get i).config.uid = some (site.uid (.inl i)) := (site.collects i).2
    rw [← hport]
    constructor
    · intro heq
      have hij : j = i := Option.some.inj (hpair.symm.trans heq)
      rw [hij]
    · intro heq
      have hij : j = i := hserves.eq_of_uid heq
      rw [← hij]
      exact hpair
  rw [hsame, List.filter_eq_self]
  intro chunk hchunk
  obtain ⟨r, hr, rfl⟩ := List.mem_map.mp hchunk
  exact decide_eq_true (forwards_chunk hforwards r (List.mem_filter.mp hr).1)

/-! ### What is handed to the ports -/

/-- What is heard for a port goes whole to the descriptor that its context has, if it is open. -/
def Hands (s : Gateway site) (lo : GatewayLabel site × GatewayOut site) : Prop :=
  ∀ i payload written, lo.2 = .wrote i payload written →
    ∃ a ctx, s.collector.system.manager.ctxs.cell a = some ctx ∧
      ctx.ser.uid = some (site.uid (.inl i)) ∧
      written = if payload = [] ∨ ctx.fd < 0 then none else some (ctx.fd, payload)

/-- A message that a listener is woken for is heard by the device of its pair, and leaves nothing
behind. -/
theorem listen_spec {c c' c'' : Collector} {ps : List Pairing} (hserves : c.Serves ps)
    (hsouth : ∀ a, c.south a = []) {i : Fin ps.length} {h : Heard} {ret : Int}
    {o out : CollectorOut} (harrive : c.step (.arrive (ps.get i).device h.msg) = .ok (c', o))
    (hlisten : c'.step (.listen i ⟨some true, true, true⟩ ret) = .ok (c'', out)) :
    (∀ a, c''.south a = []) ∧ ∃ h' written r, out = .heard (ps.get i).device h' written r ∧
      h'.payload = h.payload := by
  cases harrive
  have hthread : c.threads[i.val]? = some (some (ps.get i).device) := by
    rw [hserves.threads, List.getElem?_map, List.getElem?_eq_getElem i.isLt]
    rfl
  obtain ⟨d, hd, hfor⟩ := hserves.devices (ps.get i) (List.get_mem ps i)
  rw [Collector.step] at hlisten
  simp only [hthread, Heap.deref_of_cell hd, Refusal.lift, ok_bind, Function.update_self,
    hsouth] at hlisten
  rw [eDeviceListenIteration] at hlisten
  by_cases hrunning : d.running = true
  · simp only [hrunning, if_true, listenIteration, Heard.msg, frames_pair, List.nil_append, recvPair,
      zmqMsgRecv, recvFrame, Option.map_some, Option.bind_eq_bind, Option.bind_some, hfor.cb] at hlisten
    obtain ⟨⟨written, r⟩, -, hok⟩ := bind_eq_ok hlisten
    cases hok
    refine ⟨fun a => ?_, _, written, r, rfl, rfl⟩
    show Function.update (Function.update c.south (ps.get i).device _) (ps.get i).device [] a = []
    by_cases ha : a = (ps.get i).device
    · rw [ha, Function.update_self]
    · rw [Function.update_of_ne ha, Function.update_of_ne ha, hsouth]
  · rw [if_neg hrunning] at hlisten
    cases hlisten

/-- No section of the manager and no start of a listener touches what has reached the devices. -/
theorem south_of_step {c c' : Collector} {l : CollectorLabel} {o : CollectorOut}
    (hstep : c.step l = .ok (c', o))
    (hl : (∃ env ok, l = .reader env ok) ∨ (∃ env, l = .monitor env) ∨ ∃ i, l = .begin i) :
    c'.south = c.south := by
  rcases hl with ⟨env, ok, rfl⟩ | ⟨env, rfl⟩ | ⟨i, rfl⟩
  · obtain ⟨⟨system, out⟩, -, hrest⟩ := bind_eq_ok hstep
    obtain ⟨⟨north, rs⟩, -, hok⟩ := bind_eq_ok hrest
    cases hok
    rfl
  · obtain ⟨⟨system, out⟩, -, hok⟩ := bind_eq_ok hstep
    cases hok
    rfl
  · rw [Collector.step] at hstep
    split at hstep
    · cases hstep
    · obtain ⟨d, -, hrest⟩ := bind_eq_ok hstep
      split at hrest
      · cases hrest
        rfl
      · obtain ⟨devices, -, hok⟩ := bind_eq_ok hrest
        cases hok
        rfl

/-- No step of a listener touches the manager. -/
theorem system_of_step {c c' : Collector} {l : CollectorLabel} {o : CollectorOut}
    (hstep : c.step l = .ok (c', o)) (hreader : ∀ env ok, l ≠ .reader env ok)
    (hmonitor : ∀ env, l ≠ .monitor env) : c'.system = c.system := by
  cases l with
  | reader env ok => exact absurd rfl (hreader env ok)
  | monitor env => exact absurd rfl (hmonitor env)
  | arrive device m =>
      cases hstep
      rfl
  | begin i =>
      rw [Collector.step] at hstep
      split at hstep
      · cases hstep
      · obtain ⟨d, -, hrest⟩ := bind_eq_ok hstep
        split at hrest
        · cases hrest
          rfl
        · obtain ⟨devices, -, hok⟩ := bind_eq_ok hrest
          cases hok
          rfl
  | listen i env ret =>
      rw [Collector.step] at hstep
      split at hstep
      · cases hstep
      · cases hstep
      · obtain ⟨d, -, hrest⟩ := bind_eq_ok hstep
        split at hrest
        · cases hrest
        · split at hrest
          · cases hrest
            rfl
          · split at hrest
            · obtain ⟨⟨written, r⟩, -, hok⟩ := bind_eq_ok hrest
              cases hok
              rfl
            · cases hrest
              rfl

theorem poll_of_hear {x : site.Place} {poll : Option Bool} {bus : BusState site.Place} {h : Heard}
    (hhear : s.hear x poll = some (bus, some h)) : poll = some true := by
  obtain ⟨⟨heard, fs⟩, hiter, hrest⟩ := Option.bind_eq_some_iff.mp hhear
  obtain ⟨bus', -, heq⟩ := Option.bind_eq_some_iff.mp hrest
  cases heq
  rw [eDeviceListenIteration] at hiter
  split at hiter
  · rw [listenIteration] at hiter
    split at hiter
    · assumption
    · cases hiter
  · cases hiter

/-- **One step and the ports.** -/
theorem step_hands (hserves : s.collector.Serves site.ps) (hsouth : ∀ a, s.collector.south a = [])
    {lo : GatewayLabel site × GatewayOut site} (hstep : Fires step s lo t) :
    s.Hands lo ∧ ∀ a, t.collector.south a = [] := by
  obtain ⟨l, o⟩ := lo
  have hnone : ∀ {o : GatewayOut site}, (∀ i payload written, o ≠ .wrote i payload written) →
      s.Hands (l, o) := fun hne i payload written heq => absurd heq (hne i payload written)
  cases l with
  | reader env =>
      obtain ⟨⟨c, out⟩, hcollector, hrest⟩ := bind_eq_ok hstep
      obtain ⟨bus, -, hok⟩ := bind_eq_ok hrest
      cases hok
      refine ⟨hnone (by simp), fun a => ?_⟩
      show c.south a = []
      rw [south_of_step hcollector (Or.inl ⟨_, _, rfl⟩), hsouth]
  | monitor env =>
      obtain ⟨⟨c, out⟩, hcollector, hok⟩ := bind_eq_ok hstep
      cases hok
      refine ⟨hnone (by simp), fun a => ?_⟩
      show c.south a = []
      rw [south_of_step hcollector (Or.inr (Or.inl ⟨_, rfl⟩)), hsouth]
  | begin i =>
      obtain ⟨⟨c, out⟩, hcollector, hok⟩ := bind_eq_ok hstep
      cases hok
      refine ⟨hnone (by simp), fun a => ?_⟩
      show c.south a = []
      rw [south_of_step hcollector (Or.inr (Or.inr ⟨_, rfl⟩)), hsouth]
  | forward pick poll =>
      obtain ⟨bus, -, hok⟩ := bind_eq_ok hstep
      cases hok
      exact ⟨hnone (by simp), hsouth⟩
  | hearPort i poll ret =>
      obtain ⟨⟨bus, heard⟩, hexpect, hrest⟩ := bind_eq_ok hstep
      cases heard with
      | none =>
          cases hrest
          exact ⟨hnone (by simp), hsouth⟩
      | some h =>
          obtain ⟨⟨c, out₁⟩, harrive, hrest⟩ := bind_eq_ok hrest
          obtain ⟨⟨c', out⟩, hlisten, hok⟩ := bind_eq_ok hrest
          cases hok
          obtain rfl := poll_of_hear (Refusal.expect_ok hexpect)
          obtain ⟨hsouth', h', written, r, rfl, hpayload⟩ :=
            listen_spec hserves hsouth harrive hlisten
          refine ⟨fun j payload written' heq => ?_, hsouth'⟩
          cases heq
          have hfires : Fires Collector.step s.collector (_, out₁) c := harrive
          have hfires' : Fires Collector.step c (_, .heard (site.ps.get i).device h' written r) c' :=
            hlisten
          obtain ⟨k, env', ret', -, hthread, p, hp, hpdevice, a, ctx, hctx, huid, -, -, -, hoffer⟩ :=
            ((hserves.step hfires).serves.step hfires').offers _ _ _ _ rfl
          obtain ⟨k', rfl⟩ := List.get_of_mem hp
          have hki : k' = i := hserves.eq_of_device hpdevice
          subst hki
          refine ⟨a, ctx, ?_, huid.trans (site.collects k').2, ?_⟩
          · cases harrive
            exact hctx
          · rw [hpayload] at hoffer
            exact (congrArg Prod.fst hoffer).trans (apply_ite Prod.fst _ _ _)
  | hearMonitor a poll okMsg okPayload =>
      obtain ⟨⟨bus, heard⟩, -, hrest⟩ := bind_eq_ok hstep
      cases heard with
      | none =>
          cases hrest
          exact ⟨hnone (by simp), hsouth⟩
      | some h =>
          obtain ⟨⟨u, fwd⟩, hact, hok⟩ := bind_eq_ok hrest
          cases hok
          obtain ⟨hsame, -⟩ := act_spec hact
          exact ⟨hnone (by simp), fun b => by rw [hsame]; exact hsouth b⟩
  | client a okMsg okPayload chunk =>
      obtain ⟨⟨u, fwd⟩, hact, hok⟩ := bind_eq_ok hstep
      cases hok
      obtain ⟨hsame, -⟩ := act_spec hact
      exact ⟨hnone (by simp), fun b => by rw [hsame]; exact hsouth b⟩
  | app a =>
      obtain ⟨⟨u, what⟩, hact, hok⟩ := bind_eq_ok hstep
      cases hok
      obtain ⟨hsame, -⟩ := act_spec hact
      refine ⟨hnone ?_, fun b => by rw [hsame]; exact hsouth b⟩
      cases what <;> simp

theorem run_hands (hserves : s.collector.Serves site.ps) (hsouth : ∀ a, s.collector.south a = [])
    (hrun : Run (Fires step) s los t) : Run (fun s lo _ => s.Hands lo) s los t := by
  induction hrun with
  | nil s => exact .nil s
  | cons hstep _ ih =>
      obtain ⟨hhands, hsouth'⟩ := step_hands hserves hsouth hstep
      obtain ⟨clos, hcollector, -⟩ := step_collector hstep
      exact .cons hhands (ih (hserves.run hcollector).1 hsouth')

/-! ### From end to end -/

/-- What has come of the chunks read from a port and from the TCP clients of an actuator with its uid:
some are still under way on the bus or ahead of app_main_thread, the others have come out at the other
end in the order in which they came in, and nothing else has. -/
structure Relays (driver : EPluginDriver) (t : Gateway site)
    (los : List (GatewayLabel site × GatewayOut site)) (i : Fin site.ps.length) (a : α)
    (ahead : List Arrival) : Prop where
  north : ∀ g, Computes (site.code a) driver.northTransform g →
    broadcasts (shown (fun o => o.forwards a) los) ++
        (payloads ahead ++ t.bus.underWay (.inl i) (.inr a)).map g =
      (chunksRead (site.uid (.inl i)) (shown GatewayOut.receives los)).map g
  south : (∀ b, site.uid (.inr b) = site.uid (.inr a) → b = a) →
    ∀ g, Computes (site.code a) driver.southTransform g →
      (shown (fun o => o.writes i) los).map Prod.fst ++ t.bus.underWay (.inr a) (.inl i) ++
          ((chunks ahead).map g).filter (· ≠ []) =
        ((chunks (shown (fun o => o.arrivals a) los)).map g).filter (· ≠ [])

/-- The port and the actuator of a uid relay to each other, in every run. -/
theorem Starts.relays {driver : α → EPluginDriver} (hapart : site.Apart) (hstart : s.Starts driver)
    (hrun : Run (Fires step) s los t) {i : Fin site.ps.length} {a : α}
    (huid : site.uid (.inl i) = site.uid (.inr a)) :
    ∃ entries, (t.actuator a).Pending entries ∧
      Relays (driver a) t los i a (Bridge.arrived entries) := by
  have hmoves := run_bus hrun
  rw [hstart.bus] at hmoves
  obtain ⟨als, aos, hexec, harrivals, hforwards⟩ := run_actuator a hrun
  obtain ⟨config, start, hmain⟩ := hstart.actuator a
  obtain ⟨entries, hpending, hrelay⟩ :=
    (Bridge.Pending.init hmain).1.run (hstart.driver a) hexec
  rw [harrivals, hforwards] at hrelay
  have hbridge : Bridge.Bridges (site.code a) (driver a) (s.actuator a).memory
      (t.actuator a).memory (shown (fun o => o.arrivals a) los) (Bridge.arrived entries)
      (shown (fun o => o.forwards a) los) := .of_relay hrelay
  refine ⟨entries, hpending, fun g hg => ?_, fun hsole g hg => ?_⟩
  · have hchannel := hmoves.channel (Site.only_port hapart hstart.serves huid)
    rw [shown_hears_actuator, sends_port hstart.serves hrun] at hchannel
    rw [List.map_append, ← List.append_assoc, hbridge.northMap g hg, ← List.map_append, hchannel]
  · have hchannel := hmoves.channel (Site.only_actuator hapart huid hsole)
    rw [shown_hears_port, shown_sends_actuator] at hchannel
    rw [hchannel, ← List.filter_append, hbridge.southMap g hg]

/-- **Delivery from end to end.** In every run of the gateway the port and the actuator of a uid relay to
each other, and what is heard for a port goes whole to the descriptor that the port has then, or nowhere
when it is closed. -/
theorem gateway_delivery {driver : α → EPluginDriver} (hapart : site.Apart) (hstart : s.Starts driver)
    (hrun : Run (Fires step) s los t) :
    Run (fun s lo _ => s.Hands lo) s los t ∧
      ∀ i a, site.uid (.inl i) = site.uid (.inr a) →
        ∃ entries, (t.actuator a).Pending entries ∧
          Relays (driver a) t los i a (Bridge.arrived entries) :=
  ⟨run_hands hstart.serves hstart.south hrun, fun _ _ huid => hstart.relays hapart hrun huid⟩

end Gateway

/-- A device with uid A that runs, as the collector makes it or an actuator. -/
def sampleDevice (type : EDeviceType) : EDevice where
  type := type
  southSub := [formatTopic uidA type.subSuffix]
  uid := uidA
  southUrl := EZMB_DEFAULT_SOUTH_URL
  northUrl := EZMB_DEFAULT_NORTH_URL
  southTopic := formatTopic uidA southSuffix
  northTopic := formatTopic uidA northSuffix
  cb := some onClientRecvAddr
  running := true

theorem sampleDevice_started (type : EDeviceType) :
    ∃ d : EDevice, d.Created ∧ eDeviceListenStart (some d) = some (sampleDevice type) := by
  refine ⟨{ sampleDevice type with running := false }, ⟨⟨true, true, true, true, true, true⟩, some uidA,
    some EZMB_DEFAULT_SOUTH_URL, some EZMB_DEFAULT_NORTH_URL, some onClientRecvAddr, type, ?_⟩, rfl⟩
  cases type <;> rfl

/-- One port and one actuator, which reverses what goes north. -/
def sampleSite : Site Unit Unit where
  ps := [⟨config8N1 uidA, 0⟩]
  bus := {
    device := Sum.elim (fun _ => sampleDevice .collector) fun _ => sampleDevice .monitor
    callback := none
    started := by rintro (i | a) <;> exact sampleDevice_started _ }
  collects i := by
    rw [Fin.fin_one_eq_zero i]
    exact ⟨rfl, rfl⟩
  monitors _ := rfl
  nodes := .bump ⟨none, none⟩
  messages := .bump ⟨.toServer, []⟩
  code _ := Bridge.reversing

def samplePort : Fin sampleSite.ps.length := (0 : Fin 1)

/-- Two bytes of the port get to the TCP clients, and a byte of a client to the port. -/
def sampleGatewayRun : List (GatewayLabel sampleSite) :=
  [.monitor (opensAs 3), .begin samplePort, .reader pollsInput, .reader pollsInput,
    .reader pollsInput, .reader pollsInput, .forward (.inl samplePort) (some (true, false)),
    .hearMonitor () (some true) true true, .client () true true [7], .app (), .app (), .app (),
    .app (), .app (), .app (), .forward (.inr ()) (some (true, false)),
    .hearPort samplePort (some true) 1]

def sampleGatewayOuts : List (GatewayOut sampleSite) :=
  [.quiet, .quiet, .received [], .received [], .received [],
    .received [⟨some uidA, [1, 2], 0, true, true, [[(formatTopic uidA northSuffix).bytes, [1, 2]]]⟩],
    .quiet, .arrived () (.payload [1, 2]), .arrived () (.chunk [7]), .quiet, .quiet,
    .passed () (.broadcast [2, 1]), .quiet, .quiet, .passed () (.monitorSend [7]), .quiet,
    .wrote samplePort [7] (some (3, [7]))]

theorem sampleGateway_exec : ∃ nodes q c bridge, QueueOf oneConfig nodes q [config8N1 uidA] ∧
    collectorMain (sampleStart true true true) oneConfig nodes q = .ok (.runs c) ∧
    c.threads = [some 0] ∧
    c.devices.cell 0 = some { sampleDevice .collector with running := false } ∧
    bridgeMain sampleSite.nodes Bridge.pluginOn Bridge.reversingStart = some bridge ∧
    bridge.driver = some ⟨some 1, none⟩ ∧
    (∃ t, exec Gateway.step (⟨.start, c, fun _ => bridge⟩ : Gateway sampleSite) sampleGatewayRun =
      .ok (t, sampleGatewayOuts)) ∧
    ∃ t, exec Gateway.step (⟨.start, c, fun _ => bridge⟩ : Gateway sampleSite)
        (sampleGatewayRun.take 11) = .ok (t, sampleGatewayOuts.take 11) ∧
      (t.actuator ()).phase = .holding (some 0) ∧
      ∃ ctx, t.collector.system.manager.ctxs.cell 0 = some ctx ∧ ctx.ser.uid = some uidA ∧
        ctx.fd = 3 := by
  have hinit : Holds (eQueueInit bumpNode Heap.empty 0).1 (eQueueInit bumpNode Heap.empty 0).2 [] :=
    ⟨_, [], QueueRep.init_spec bumpNode Heap.empty 0, rfl⟩
  obtain ⟨nodes, q, hpush, hholds⟩ := hinit.push bumpNode (some 0)
  have hqueue : QueueOf oneConfig nodes q [config8N1 uidA] := ⟨[0], hholds, .cons rfl .nil⟩
  cases hpush
  exact ⟨_, _, _, _, hqueue, rfl, rfl, rfl, rfl, rfl, ⟨_, rfl⟩, _, rfl, rfl, _, rfl, rfl, rfl⟩

/-- The run, and a part of it after which the payload is in hand and the chunk in the queue. -/
theorem sampleGateway_starts : ∃ s t u : Gateway sampleSite, s.Starts (fun _ => ⟨some 1, none⟩) ∧
    Run (Fires Gateway.step) s (sampleGatewayRun.zip sampleGatewayOuts) t ∧
    Run (Fires Gateway.step) s (sampleGatewayRun.zip sampleGatewayOuts |>.take 11) u ∧
    (u.actuator ()).phase.Busy ∧ ∃ ctx, u.collector.system.manager.ctxs.cell 0 = some ctx ∧
      ctx.ser.uid = some uidA ∧ ctx.fd = 3 := by
  obtain ⟨nodes, q, c, bridge, hqueue, hmain, hthreads, hdevice, hbridge, hdriver, ⟨t, hexec⟩, u, hexec',
    hphase, hport⟩ := sampleGateway_exec
  have henv : (sampleStart true true true).Succeeds [config8N1 uidA].length :=
    ⟨rfl, fun _ _ => ⟨rfl, rfl, rfl, rfl, rfl, rfl⟩, fun _ _ => rfl, fun _ _ => rfl⟩
  obtain ⟨c', ps, hmain', hconfigs, hserves, -⟩ := collectorMain_spec hqueue (by decide)
    (by simp [config8N1]) (by simp) henv
  rw [hmain] at hmain'
  cases hmain'
  have hps : ps = sampleSite.ps := by
    obtain ⟨p, rfl, hconfig⟩ := List.map_eq_singleton_iff.mp hconfigs
    have hdevice' : p.device = 0 := by simpa [hserves.threads] using hthreads
    exact congrArg (fun p => [p]) (by cases p; cases hconfig; cases hdevice'; rfl)
  subst hps
  refine ⟨⟨.start, c, fun _ => bridge⟩, t, u, ⟨rfl, ⟨_, _, _, _, hmain⟩, hserves, fun i => ?_,
    fun _ => ⟨_, _, hbridge⟩, fun _ => hdriver⟩, run_of_exec hexec, run_of_exec hexec', ?_, hport⟩
  · rw [Fin.fin_one_eq_zero i]
    exact ⟨_, hdevice, rfl⟩
  · rw [hphase]
    trivial

theorem sampleSite_functions (a : Unit) : Bridge.HasFunctions (sampleSite.code a) ⟨some 1, none⟩ where
  north := by
    intro transform hpointer
    cases hpointer
    rfl
  south := callable_none

theorem sampleSite_apart : sampleSite.Apart where
  room x := by
    have hroom : uidA.bytes.length ≤ directionRoom := by decide
    cases x <;> exact hroom
  apart x y hne := absurd (by cases x <;> cases y <;> rfl) hne

/-- What was read at the port has come out at the clients, and what was read from a client at the
port. -/
theorem gateway_delivery_sample : ∃ s t : Gateway sampleSite,
    s.Starts (fun _ => ⟨some 1, none⟩) ∧
      Run (fun s lo _ => s.Hands lo) s (sampleGatewayRun.zip sampleGatewayOuts) t ∧
      ∀ i a, sampleSite.uid (.inl i) = sampleSite.uid (.inr a) → ∃ entries,
        (t.actuator a).Pending entries ∧ Gateway.Relays ⟨some 1, none⟩ t
          (sampleGatewayRun.zip sampleGatewayOuts) i a (Bridge.arrived entries) := by
  obtain ⟨s, t, -, hstart, hrun, -⟩ := sampleGateway_starts
  exact ⟨s, t, hstart, Gateway.gateway_delivery sampleSite_apart hstart hrun⟩

end LibEzmb
