import LibEzmb.GatewayModel

/-! The start of the gateway: a collector that has got through its `main`, and actuators that have got
through theirs, are the parts of a gateway whose bus has the devices of the collector's pairs and the
monitors. -/

open CHeap CBytes Multipart Runs

namespace LibEzmb

variable {α π : Type}

/-! ### The devices of the collector -/

/-- Every device was made as a collector, and no listener runs it yet. -/
def AllMade (devices : Heap EDevice) : Prop :=
  ∀ a d, devices.cell a = some d → ∃ env uid southUrl northUrl cb,
    eCommonCreate env uid southUrl northUrl cb .collector = some d

theorem AllMade.create {devices devices' : Heap EDevice} (hmade : AllMade devices)
    {M : Malloc EDevice} {env : CreateEnv} {uid : Option CStr} {cb : Option Addr} {ptr : Ptr}
    (hcreate : eCollectorCreateDefault M env devices uid cb = (devices', ptr)) : AllMade devices' := by
  rw [eCollectorCreateDefault] at hcreate
  split at hcreate
  · cases hcreate
    exact hmade
  · next d hd =>
      cases hcreate
      intro a e he
      rw [Heap.set_cell] at he
      split at he
      · cases he
        exact ⟨_, _, _, _, _, hd⟩
      · exact hmade a e he

theorem AllMade.adding {env : StartEnv} {configs : Heap SerialConfig} {s t : Adding}
    (hmade : AllMade s.devices) (hround : addingRound env configs s = .ok t) : AllMade t.devices := by
  obtain ⟨⟨nodes, portQueue, config⟩, -, hrest⟩ := bind_eq_ok hround
  obtain ⟨c, -, hrest⟩ := bind_eq_ok hrest
  simp only at hrest
  obtain ⟨⟨manager, r⟩, -, hrest⟩ := bind_eq_ok hrest
  simp only at hrest
  split at hrest
  · obtain ⟨manager', -, hok⟩ := bind_eq_ok hrest
    cases hok
    exact hmade.create rfl
  · obtain ⟨⟨nodes', deviceQueue⟩, -, hok⟩ := bind_eq_ok hrest
    cases hok
    exact hmade.create rfl

/-- What `main` hands over: made devices, and nothing on their links. -/
theorem collectorMain_runs {env : StartEnv} {configs : Heap SerialConfig} {nodes : QHeap}
    {portQueue : EQueue} {c : Collector}
    (hmain : collectorMain env configs nodes portQueue = .ok (.runs c)) :
    AllMade c.devices ∧ ∀ a, c.south a = [] := by
  rw [collectorMain] at hmain
  split at hmain
  · cases hmain
  · split at hmain
    · cases hmain
    · obtain ⟨u, hadding, hrest⟩ := bind_eq_ok hmain
      have hmade : AllMade u.devices := by
        refine whileLoop_invariant (I := fun s => AllMade s.devices)
          (fun s t hs hround => AllMade.adding hs hround) ?_ hadding
        intro a d hd
        cases hd
      split at hrest
      · cases hrest
      · obtain ⟨v, -, hrest⟩ := bind_eq_ok hrest
        obtain ⟨w, -, hok⟩ := bind_eq_ok hrest
        rw [← MainResult.runs.inj (Except.ok.inj hok)]
        exact ⟨hmade, fun a => rfl⟩

namespace Gateway

variable {site : Site α π} {s : Gateway site}

/-- The start: nothing is on the bus, the collector has got through its `main` and serves its pairs with
the devices of the bus, and each actuator has got through its `main` and works with this driver. -/
structure Starts (driver : α → EPluginDriver) (s : Gateway site) : Prop where
  bus : s.bus = .start
  collector : ∃ env configs nodes q, collectorMain env configs nodes q = .ok (.runs s.collector)
  serves : s.collector.Serves site.ps
  devices : ∀ i : Fin site.ps.length, ∃ d, s.collector.devices.cell (site.ps.get i).device = some d ∧
    { d with running := true } = site.bus.device (.inl i)
  actuator : ∀ a, ∃ config start, bridgeMain site.nodes config start = some (s.actuator a)
  driver : ∀ a, (s.actuator a).driver = some (driver a)

/-- Nothing has reached the devices of the collector yet. -/
theorem Starts.south {driver : α → EPluginDriver} (hstart : s.Starts driver) (a : Addr) :
    s.collector.south a = [] := by
  obtain ⟨env, configs, nodes, q, hmain⟩ := hstart.collector
  exact (collectorMain_runs hmain).2 a

end Gateway

theorem eDeviceListenStart_of_cb {d : EDevice} {cb : Addr} (hcb : d.cb = some cb) :
    eDeviceListenStart (some d) = some { d with running := true } := by
  rw [eDeviceListenStart, if_neg (by simp [hcb])]

/-- A monitor whose listener runs. -/
def MonitorRuns (d : EDevice) : Prop :=
  ∃ env uid southUrl northUrl cb e,
    eCommonCreate env uid southUrl northUrl (some cb) .monitor = some e ∧
      d = { e with running := true }

theorem MonitorRuns.started {d : EDevice} (hmonitor : MonitorRuns d) :
    d.type = .monitor ∧ ∃ e : EDevice, e.Created ∧ eDeviceListenStart (some e) = some d := by
  obtain ⟨env, uid, southUrl, northUrl, cb, e, hcreate, rfl⟩ := hmonitor
  obtain ⟨-, htype, hcb, -⟩ := eCommonCreate_spec hcreate
  exact ⟨htype, e, ⟨_, _, _, _, _, _, hcreate⟩, eDeviceListenStart_of_cb hcb⟩

/-- **The start.** When nothing fails in the start of the collector, it and any actuators that have got
through their starts are a gateway, with a port for each configuration. -/
theorem gateway_starts {env : StartEnv} {configs : Heap SerialConfig} {nodes : QHeap}
    {portQueue : EQueue} {cs : List SerialConfig} (hqueue : QueueOf configs nodes portQueue cs)
    (hlen : cs.length ≤ MAX_THREAD_COUNT) (hnamed : ∀ c ∈ cs, c.uid ≠ none)
    (hdistinct : (cs.map SerialConfig.uid).Nodup) (henv : env.Succeeds cs.length)
    {M : Malloc EQnode} (K : Malloc MessageQueue) (code : α → TransformCode π)
    (proxyCallback : Option Addr) {monitor : α → EDevice} (hmonitor : ∀ a, MonitorRuns (monitor a))
    {actuator : α → Bridge π} {driver : α → EPluginDriver}
    (hactuator : ∀ a, ∃ config start, bridgeMain M config start = some (actuator a))
    (hdriver : ∀ a, (actuator a).driver = some (driver a)) :
    ∃ (site : Site α π) (s : Gateway site), site.ps.map Pairing.config = cs ∧
      (∀ a, site.bus.device (.inr a) = monitor a) ∧ s.actuator = actuator ∧ s.Starts driver := by
  obtain ⟨c, ps, hmain, hconfigs, hserves, -⟩ :=
    collectorMain_spec hqueue hlen hnamed hdistinct henv
  have hmade := (collectorMain_runs hmain).1
  choose d hd hfor using fun i : Fin ps.length => hserves.devices (ps.get i) (List.get_mem ps i)
  have hcollects : ∀ i, (d i).type = .collector ∧ (d i).Created := by
    intro i
    obtain ⟨env, uid, southUrl, northUrl, cb, hcreate⟩ := hmade _ _ (hd i)
    exact ⟨(eCommonCreate_spec hcreate).2.1, _, _, _, _, _, _, hcreate⟩
  let bus : Bus (Fin ps.length ⊕ α) := {
    device := Sum.elim (fun i => { d i with running := true }) monitor
    callback := proxyCallback
    started := by
      rintro (i | a)
      · exact ⟨d i, (hcollects i).2, eDeviceListenStart_of_cb (hfor i).cb⟩
      · exact (hmonitor a).started.2 }
  let site : Site α π := {
    ps := ps
    bus := bus
    collects := fun i => ⟨(hcollects i).1, (hfor i).uid⟩
    monitors := fun a => (hmonitor a).started.1
    nodes := M
    messages := K
    code := code }
  refine ⟨site, ⟨.start, c, actuator⟩, hconfigs, fun a => rfl, rfl, rfl, ⟨_, _, _, _, hmain⟩, hserves,
    fun i => ⟨d i, hd i, rfl⟩, hactuator, hdriver⟩

end LibEzmb
