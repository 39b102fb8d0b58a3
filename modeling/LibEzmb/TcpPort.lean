import LibEzmb.BaseCLib
import LibEzmb.TcpBridge
import LibEzmb.TcpClients

/-! The port of the TCP server, from the command line through e_tcp_server_config.c into the socket
address that e_tcp_server.c listens on. -/

open CBytes CLib

namespace LibEzmb

/-- `tcp_server_config_t`. -/
structure TcpServerArgs extends TcpServerConfig where
  uid : Option CStr
  port : Int

def eTcpServerConfigInit : TcpServerArgs where
  uid := none
  port := 0
  pluginPath := none
  pluginEnable := false

/-- `"u:l:p:h"` and `long_options`. -/
def tcpServerOptions : OptionTable where
  short := [('u', true), ('l', true), ('p', true), ('h', false)]
  long := [⟨['u', 'i', 'd'], true, 'u'⟩, ⟨['l', 'i', 's', 't', 'e', 'n'], true, 'l'⟩,
    ⟨['p', 'l', 'u', 'g', 'i', 'n'], true, 'p'⟩, ⟨['h', 'e', 'l', 'p'], false, 'h'⟩]

/-- Where an option leaves the loop: it goes on, the function returns false, or the program ends. -/
inductive TcpOptionResult where
  | next (config : TcpServerArgs)
  | fails (config : TcpServerArgs)
  | exits (status : Int)

/-- The body of the loop over the options, given whether there is memory for a copy. -/
def handleTcpOption (okCopy : Bool) (config : TcpServerArgs) : Opt → TcpOptionResult
  | .opt 'u' (some arg) => .next { config with uid := if okCopy then some (.ofBytes arg) else none }
  | .opt 'l' (some arg) => .next { config with port := atoi arg }
  | .opt 'p' (some arg) => .next { config with
      pluginPath := if okCopy then some (.ofBytes arg) else none
      pluginEnable := true }
  | .opt 'h' _ => .exits 0
  | _ => .fails config

/-- The loop over the options, from the one with number `i` on. -/
def handleTcpOptions (okCopy : Nat → Bool) : Nat → List Opt → TcpServerArgs → TcpOptionResult
  | _, [], config => .next config
  | i, o :: os, config =>
      match handleTcpOption (okCopy i) config o with
      | .next config => handleTcpOptions okCopy (i + 1) os config
      | result => result

/-- What the system gives the parser: memory for the copy at each option, and whether the environment
asks for the POSIX order of arguments. -/
structure TcpParseEnv where
  okCopy : Nat → Bool
  posixlyCorrect : Bool

inductive TcpParseResult where
  | returns (r : Bool) (config : TcpServerArgs)
  | exits (status : Int)

/-- The options of an argument vector. -/
def tcpOptionsOf (env : TcpParseEnv) (argv : List CStr) : List Opt :=
  tcpServerOptions.getoptLong env.posixlyCorrect none (argv.tail.map CStr.bytes)

def eTcpServerConfigParse (env : TcpParseEnv) (argv : List CStr) : TcpParseResult :=
  match handleTcpOptions env.okCopy 0 (tcpOptionsOf env argv) eTcpServerConfigInit with
  | .fails config => .returns false config
  | .exits status => .exits status
  | .next config => .returns (config.uid.isSome && config.port ≠ 0) config

/-! ### The socket address -/

/-- `struct sockaddr_in`: the family, and the two bytes of the port in the order of the network. -/
structure SockaddrIn where
  sinFamily : Int
  sinPort : UInt8 × UInt8

def AF_INET : Int := 2

/-- `htons`. -/
def htons (hostshort : UInt16) : UInt8 × UInt8 := ((hostshort >>> 8).toUInt8, hostshort.toUInt8)

/-- The number that the two bytes of the port say. -/
def SockaddrIn.portNumber (sin : SockaddrIn) : Nat := sin.sinPort.1.toNat * 256 + sin.sinPort.2.toNat

/-- The address of `e_tcp_server_create`, which gives `htons` an `int`. -/
def eTcpServerSin (port : Int) : SockaddrIn := ⟨AF_INET, htons (UInt16.ofInt port)⟩

/-- `e_tcp_server_t` with its address. -/
structure ListeningServer where
  server : EventServer
  sin : SockaddrIn
  port : Int

/-- `e_tcp_server_create` with its port, given whether a listener can be bound to an address. -/
def eTcpServerListen (okServer : Bool) (newBind : SockaddrIn → Bool) (slots : SlotAlloc)
    (port : Int) : Option ListeningServer := do
  let server ← eTcpServerCreate okServer (newBind (eTcpServerSin port)) slots
  some ⟨server, eTcpServerSin port, port⟩

theorem htons_portNumber (family : Int) (n : UInt16) :
    SockaddrIn.portNumber ⟨family, htons n⟩ = n.toNat := by
  have hn := n.toNat_lt
  have hhigh : (n >>> 8).toUInt8.toNat = n.toNat / 256 := by
    rw [UInt16.toNat_toUInt8, UInt16.toNat_shiftRight, Nat.shiftRight_eq_div_pow]
    simp
    omega
  have hlow : n.toUInt8.toNat = n.toNat % 256 := UInt16.toNat_toUInt8 n
  simp only [SockaddrIn.portNumber, htons, hhigh, hlow]
  omega

/-- The port is reduced to sixteen bits. -/
theorem eTcpServerSin_portNumber (port : Int) :
    ((eTcpServerSin port).portNumber : Int) = port % 2 ^ 16 := by
  have hlt : (port % 2 ^ 16).toNat < 2 ^ 16 := by omega
  rw [eTcpServerSin, htons_portNumber, UInt16.ofInt, UInt16.toNat_ofNat_of_lt' hlt]
  omega

/-- A server that is created with this port listens on this port. -/
def ListensOn (port : Int) : Prop :=
  ∀ okServer newBind slots listening,
    eTcpServerListen okServer newBind slots port = some listening →
      (listening.sin.portNumber : Int) = port

theorem listensOn_iff (port : Int) : ListensOn port ↔ 0 ≤ port ∧ port < 2 ^ 16 := by
  have haddr : (∀ okServer newBind slots listening,
      eTcpServerListen okServer newBind slots port = some listening →
        listening.sin = eTcpServerSin port) := by
    intro okServer newBind slots listening hlisten
    obtain ⟨server, -, hserver⟩ := Option.bind_eq_some_iff.mp hlisten
    cases hserver
    rfl
  have hmod := eTcpServerSin_portNumber port
  constructor
  · intro hlistens
    have hnumber := hlistens true (fun _ => true) (some fun _ => 0) _ rfl
    change ((eTcpServerSin port).portNumber : Int) = port at hnumber
    omega
  · intro hfits okServer newBind slots listening hlisten
    rw [haddr _ _ _ _ hlisten, hmod]
    omega

/-! ### What the options say -/

/-- An option that the loop takes. -/
def Taken : Opt → Prop
  | .opt 'u' (some _) => True
  | .opt 'l' (some _) => True
  | .opt 'p' (some _) => True
  | _ => False

/-- What an option writes into the port. -/
def portWrite : Opt → Option Int
  | .opt 'l' (some arg) => some (atoi arg)
  | _ => none

/-- What the option with this number writes into the uid. -/
def uidWrite (okCopy : Nat → Bool) (x : Opt × Nat) : Option (Option CStr) :=
  match x.1 with
  | .opt 'u' (some arg) => some (if okCopy x.2 then some (.ofBytes arg) else none)
  | _ => none

/-- The port that the options give: the last one, or zero. -/
def portGiven (opts : List Opt) : Int := lastWrite portWrite opts 0

/-- The options are known, none asks for help, and they give a uid of which there is a copy. -/
def Complete (okCopy : Nat → Bool) (opts : List Opt) : Prop :=
  (∀ o ∈ opts, Taken o) ∧ (lastWrite (uidWrite okCopy) opts.zipIdx none).isSome

theorem handleTcpOption_next {okCopy : Nat → Bool} {i : Nat} {config config' : TcpServerArgs}
    {o : Opt} (hnext : handleTcpOption (okCopy i) config o = .next config') :
    Taken o ∧ config'.port = (portWrite o).getD config.port ∧
      config'.uid = (uidWrite okCopy (o, i)).getD config.uid := by
  revert hnext
  unfold handleTcpOption
  split <;> intro hnext <;> cases hnext <;> exact ⟨trivial, rfl, rfl⟩

theorem handleTcpOption_taken {o : Opt} (htaken : Taken o) (okCopy : Bool)
    (config : TcpServerArgs) : ∃ config', handleTcpOption okCopy config o = .next config' := by
  unfold Taken at htaken
  split at htaken
  · exact ⟨_, rfl⟩
  · exact ⟨_, rfl⟩
  · exact ⟨_, rfl⟩
  · exact htaken.elim

/-- A loop that gets to its end took every option, and the last port and uid are left. -/
theorem handleTcpOptions_next {okCopy : Nat → Bool} {opts : List Opt} {i : Nat}
    {config config' : TcpServerArgs}
    (hnext : handleTcpOptions okCopy i opts config = .next config') :
    (∀ o ∈ opts, Taken o) ∧ config'.port = lastWrite portWrite opts config.port ∧
      config'.uid = lastWrite (uidWrite okCopy) (opts.zipIdx i) config.uid := by
  induction opts generalizing i config with
  | nil =>
      cases hnext
      exact ⟨fun _ ho => absurd ho List.not_mem_nil, rfl, rfl⟩
  | cons o os ih =>
      rw [handleTcpOptions] at hnext
      cases hhead : handleTcpOption (okCopy i) config o with
      | next config₁ =>
          rw [hhead] at hnext
          obtain ⟨htaken, hport, huid⟩ := handleTcpOption_next hhead
          obtain ⟨hall, hport', huid'⟩ := ih hnext
          rw [List.zipIdx_cons, lastWrite_cons, lastWrite_cons, ← hport, ← huid]
          exact ⟨List.forall_mem_cons.mpr ⟨htaken, hall⟩, hport', huid'⟩
      | fails config₁ => rw [hhead] at hnext; cases hnext
      | exits status => rw [hhead] at hnext; cases hnext

theorem handleTcpOptions_taken {okCopy : Nat → Bool} {opts : List Opt}
    (htaken : ∀ o ∈ opts, Taken o) (i : Nat) (config : TcpServerArgs) :
    ∃ config', handleTcpOptions okCopy i opts config = .next config' := by
  induction opts generalizing i config with
  | nil => exact ⟨config, rfl⟩
  | cons o os ih =>
      obtain ⟨ho, hos⟩ := List.forall_mem_cons.mp htaken
      obtain ⟨config₁, hhead⟩ := handleTcpOption_taken ho (okCopy i) config
      rw [handleTcpOptions, hhead]
      exact ih hos (i + 1) config₁

/-- The ports that are accepted are all but zero. -/
theorem parse_accepts_iff (env : TcpParseEnv) (argv : List CStr) (port : Int) :
    (∃ config, eTcpServerConfigParse env argv = .returns true config ∧ config.port = port) ↔
      Complete env.okCopy (tcpOptionsOf env argv) ∧ portGiven (tcpOptionsOf env argv) = port ∧
        port ≠ 0 := by
  constructor
  · rintro ⟨config, hparse, rfl⟩
    unfold eTcpServerConfigParse at hparse
    split at hparse
    · cases hparse
    · cases hparse
    · next config' hloop =>
        obtain ⟨hall, hport, huid⟩ := handleTcpOptions_next hloop
        rw [TcpParseResult.returns.injEq] at hparse
        obtain ⟨haccept, rfl⟩ := hparse
        simp only [Bool.and_eq_true, decide_eq_true_eq] at haccept
        exact ⟨⟨hall, huid ▸ haccept.1⟩, hport.symm, haccept.2⟩
  · rintro ⟨⟨hall, huidGiven⟩, hgiven, hport⟩
    obtain ⟨config, hloop⟩ := handleTcpOptions_taken hall 0 eTcpServerConfigInit
    obtain ⟨-, hport', huid⟩ := handleTcpOptions_next hloop
    have hsame : config.port = port := hport'.trans hgiven
    have hsome : config.uid.isSome := huid ▸ huidGiven
    refine ⟨config, ?_, hsame⟩
    simp [eTcpServerConfigParse, hloop, hsome, hsame, hport]

/-- A port that the parser accepts is the one the server listens on, and fits a port number. -/
def PortAgrees (env : TcpParseEnv) (argv : List CStr) : Prop :=
  ∀ config, eTcpServerConfigParse env argv = .returns true config →
    ListensOn config.port ∧ 0 ≤ config.port ∧ config.port < 2 ^ 16

/-- **The port.** The server listens on the port it is given exactly when the port on a complete
command line is one that fits sixteen bits. -/
theorem port_agrees_iff (env : TcpParseEnv) (argv : List CStr) :
    PortAgrees env argv ↔ (Complete env.okCopy (tcpOptionsOf env argv) →
      0 ≤ portGiven (tcpOptionsOf env argv) ∧ portGiven (tcpOptionsOf env argv) < 2 ^ 16) := by
  constructor
  · intro hagrees hcomplete
    by_cases hzero : portGiven (tcpOptionsOf env argv) = 0
    · omega
    · obtain ⟨config, hparse, hport⟩ :=
        (parse_accepts_iff env argv _).mpr ⟨hcomplete, rfl, hzero⟩
      exact hport ▸ (hagrees config hparse).2
  · intro hfits config hparse
    obtain ⟨hcomplete, hgiven, -⟩ := (parse_accepts_iff env argv _).mp ⟨config, hparse, rfl⟩
    have hrange := hgiven ▸ hfits hcomplete
    exact ⟨(listensOn_iff config.port).mpr hrange, hrange⟩

/-- The command line with this port, and a uid. -/
def portArgs (port : List Char) : List CStr :=
  [['s'], ['-', 'u'], ['a'], ['-', 'l'], port].map fun arg => .ofBytes (arg.map code)

/-- `-l 65616` is accepted and the server listens on port 80, `-l -1` and it listens on port 65535. -/
theorem port_reduced :
    ((∃ config, eTcpServerConfigParse ⟨fun _ => true, false⟩ (portArgs ['6', '5', '6', '1', '6']) =
        .returns true config ∧ config.port = 65616 ∧ (eTcpServerSin config.port).portNumber = 80) ∧
      ¬ PortAgrees ⟨fun _ => true, false⟩ (portArgs ['6', '5', '6', '1', '6'])) ∧
    (∃ config, eTcpServerConfigParse ⟨fun _ => true, false⟩ (portArgs ['-', '1']) =
        .returns true config ∧ config.port = -1 ∧
        (eTcpServerSin config.port).portNumber = 65535) ∧
      ¬ PortAgrees ⟨fun _ => true, false⟩ (portArgs ['-', '1']) := by
  refine ⟨⟨⟨_, rfl, rfl, rfl⟩, fun hagrees => ?_⟩, ⟨_, rfl, rfl, rfl⟩, fun hagrees => ?_⟩
  · exact absurd (hagrees _ rfl).2.2 (by decide)
  · exact absurd (hagrees _ rfl).2.1 (by decide)

end LibEzmb
