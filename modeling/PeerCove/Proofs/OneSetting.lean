/-
Module: PeerCove.Proofs.OneSetting
Layer: Proofs
Purpose: Writing all settings back with one of them changed, after any operations on the members.
Trusted boundary: none
Main exports: Rewritable, SettingWorks, HostLabelFree, setting_works_iff
-/
import PeerCove.Library.Runs
import PeerCove.Library.Trimming
import PeerCove.Ops.SettingEdits
import PeerCove.Proofs.NameClashes

namespace PeerCove

open Fallible FilePrograms

variable {config next : Config}

/-! ### Texts as they are written -/

theorem trim_eq (text : String) :
    Text.trim text = String.ofList (Trimming.trim Text.isWhitespace text.toList) := rfl

theorem trim_trim (text : String) : Text.trim (Text.trim text) = Text.trim text := by
  rw [trim_eq, trim_eq text, String.toList_ofList,
    Trimming.trim_of_ends (fun _ first => Trimming.trim_head first)
      (fun _ last => Trimming.trim_last last)]

/-- What is written is written again. -/
theorem entered_entered (text : Option String) : entered (entered text) = entered text := by
  cases text with
  | none => rfl
  | some text =>
      unfold entered
      rw [Option.map_some]
      by_cases blank : Text.trim text = ""
      · rw [Option.filter_some, if_neg (by simpa using blank)]
        rfl
      · rw [Option.filter_some, if_pos (by simpa using blank), Option.map_some, trim_trim,
          Option.filter_some, if_pos (by simpa using blank)]

/-- No white space is in a label. -/
theorem entered_label {label : String} (fine : Names.isDnsLabel label = true) :
    entered (some label) = some label := by
  have shape := Names.isDnsLabel_iff.mp fine
  have solid : ∀ c ∈ label.toList, Text.isWhitespace c = false := by
    intro c listed
    rcases Names.labelChar_cases (shape.mapped c listed) with lower | digit | rfl
    · have bounds : 97 ≤ c.toNat ∧ c.toNat ≤ 122 := by simpa [Text.isAsciiLower] using lower
      unfold Text.isWhitespace
      simp only [Bool.or_eq_false_iff, Bool.and_eq_false_iff, decide_eq_false_iff_not,
        beq_eq_false_iff_ne]
      omega
    · have bounds : 48 ≤ c.toNat ∧ c.toNat ≤ 57 := by simpa [Text.isAsciiDigit] using digit
      unfold Text.isWhitespace
      simp only [Bool.or_eq_false_iff, Bool.and_eq_false_iff, decide_eq_false_iff_not,
        beq_eq_false_iff_ne]
      omega
    · decide
  have same : Text.trim label = label := by
    rw [trim_eq, Trimming.trim_of_ends (fun c first => solid c (List.mem_of_head? first))
      (fun c last => solid c (List.mem_of_getLast? last)), String.ofList_toList]
  have filled : label ≠ "" := by
    rintro rfl
    exact shape.nonempty rfl
  unfold entered
  rw [Option.map_some, same, Option.filter_some, if_pos (decide_eq_true filled)]

/-- A fixed name is its own normal form. -/
theorem normalizeDnsName_again {input label : String} {forHost : Bool}
    (made : Names.normalizeDnsName input forHost = .ok label) :
    Names.normalizeDnsName label forHost = .ok label := by
  have fine := normalizeDnsName_fine made
  unfold Names.isDnsLabel at fine
  unfold Names.normalizeDnsName at made ⊢
  rw [of_decide_eq_true fine]
  cases normal : Names.dnsLabel input with
  | none =>
      rw [normal] at made
      cases made
  | some other =>
      rw [normal] at made
      dsimp only at made ⊢
      split at made
      · cases made
      · rename_i free
        obtain rfl := Except.ok.inj made
        rw [if_neg free]

/-! ### Configurations of a host -/

/-- The peers of a host have no address where they are found. -/
def IsHost (config : Config) : Prop :=
  ∀ peer ∈ config.peers, peer.endpoint = none

theorem hostEndpoint_none (host : IsHost config) : config.hostEndpoint = none := by
  unfold Config.hostEndpoint
  match listed : config.peers with
  | [] => rfl
  | [peer] =>
      refine host peer ?_
      rw [listed]
      exact List.mem_cons_self
  | _ :: _ :: _ => rfl

theorem isMember_false (host : IsHost config) : config.settings.isMember = false := by
  change config.hostEndpoint.isSome = false
  rw [hostEndpoint_none host]
  rfl

/-- A configuration whose settings are as `settings::update` writes them. -/
structure Rewritable (config : Config) : Prop where
  valid : config.validate = .ok ()
  host : IsHost config
  display : entered config.interface.displayName = config.interface.displayName
  named : (config.interface.displayName.forM validateName : Except String Unit) = .ok ()
  network : entered config.interface.networkDisplayName = config.interface.networkDisplayName
  networkNamed : (config.interface.networkDisplayName.forM checkNetworkDisplayName :
    Except String Unit) = .ok ()
  port : config.interface.listenPort ≠ some 0
  mtu : ¬ (config.interface.mtu < MTU_MIN ∨ MTU_MAX < config.interface.mtu)
  label : ∀ label, config.interface.dnsName = some label →
    Names.normalizeDnsName label true = .ok label

/-- The fixed name of the host is no member's and no record's. -/
def HostLabelFree (config : Config) : Prop :=
  ∀ label, config.interface.dnsName = some label → label ∉ takenDnsLabels config .host

/-- Each of the settings can be changed, and nothing else changes. -/
def SettingWorks (config : Config) : Prop :=
  ∀ setting : SettingChange, setting.Valid →
    (changeSettings setting.change).alone config =
      (.ok (), { config with interface := setting.result config.interface })

/-! ### Writing the settings -/

/-- The fixed name that is written for a text: none for no text, else its normal form, which nobody
else has. -/
inductive WrittenAs (config : Config) (text : Option String) : Option String → Prop where
  | nothing (blank : entered text = none) : WrittenAs config text none
  | label {input label : String} (typed : entered text = some input)
      (made : Names.normalizeDnsName input true = .ok label)
      (free : label ∉ takenDnsLabels config .host) : WrittenAs config text (some label)

theorem mapError_ok {α ε ε' : Type} {outcome : Except ε α} {error : ε → ε'} {value : α} :
    outcome.mapError error = .ok value ↔ outcome = .ok value := by
  cases outcome with
  | error error => exact iff_of_false (fun same => by cases same) (fun same => by cases same)
  | ok found => exact ⟨fun same => by cases same; rfl, fun same => by cases same; rfl⟩

theorem writtenDnsName_ok {text written : Option String} {left : Config}
    (valid : config.validate = .ok ()) :
    (writtenDnsName false text).alone config = (.ok written, left) ↔
      left = config ∧ WrittenAs config text written := by
  unfold writtenDnsName
  rw [if_neg Bool.false_ne_true]
  cases typed : entered text with
  | none =>
      dsimp only
      rw [Program.alone_pure_ok]
      constructor
      · rintro ⟨rfl, rfl⟩
        exact ⟨rfl, .nothing typed⟩
      · rintro ⟨rfl, writes⟩
        cases writes with
        | nothing blank => exact ⟨rfl, rfl⟩
        | label other => cases typed.symm.trans other
  | some input =>
      unfold enteredDnsName
      simp only [Program.alone_bind_ok, Program.alone_lift_ok, alone_loadConfig_ok,
        Program.alone_pure_ok, mapError_ok, refuseIf_ok]
      constructor
      · rintro ⟨label, _, ⟨_, _, ⟨made, rfl⟩, _, _, ⟨_, rfl, rfl⟩, _, _, ⟨free, rfl⟩, rfl, rfl⟩,
          rfl, rfl⟩
        exact ⟨rfl, .label typed made free⟩
      · rintro ⟨rfl, writes⟩
        cases writes with
        | nothing blank => cases typed.symm.trans blank
        | label other made free =>
            obtain rfl := Option.some.inj (typed.symm.trans other)
            exact ⟨_, _, ⟨_, _, ⟨made, rfl⟩, _, _, ⟨valid, rfl, rfl⟩, (), _, ⟨free, rfl⟩, rfl, rfl⟩,
              rfl, rfl⟩

/-- What `settings::update` asks for on a host, and what it writes. -/
structure Applied (update : Update) (config next : Config) (dnsName : Option String) : Prop where
  mtu : ¬ (update.mtu < MTU_MIN ∨ MTU_MAX < update.mtu)
  port : update.listenPort ≠ some 0
  named : ((entered update.displayName).forM validateName : Except String Unit) = .ok ()
  before : config.validate = .ok ()
  networkNamed : ((entered update.networkDisplayName).forM checkNetworkDisplayName :
    Except String Unit) = .ok ()
  written : WrittenAs config update.dnsName dnsName
  after : next.validate = .ok ()
  same : next = { config with
    interface :=
      update.interface false (entered update.displayName) dnsName
        (entered update.networkDisplayName) config.interface }

theorem setHostEndpoint_host (endpoint : Option SocketAddr) (peers : List PeerConfig) :
    setHostEndpoint false endpoint peers = .ok peers := by
  unfold setHostEndpoint
  rfl

theorem apply_ok (host : IsHost config) (update : Update) :
    update.apply.alone config = (.ok (), next) ↔ ∃ dnsName, Applied update config next dnsName := by
  have member := isMember_false host
  unfold Update.apply Settings.read
  simp only [Program.alone_bind_ok, Program.alone_lift_ok, alone_loadConfig_ok,
    Program.alone_pure_ok, Program.alone_write_ok, refuseIf_ok]
  constructor
  · rintro ⟨_, _, ⟨mtu, rfl⟩, _, _, ⟨port, rfl⟩, _, _, ⟨named, rfl⟩, current, _,
      ⟨_, _, ⟨valid, rfl, rfl⟩, rfl, rfl⟩, _, _, ⟨networkNamed, rfl⟩, dnsName, _, writes, edits⟩
    rw [member, if_neg Bool.false_ne_true] at networkNamed edits
    rw [member] at writes
    obtain ⟨rfl, written⟩ := (writtenDnsName_ok valid).mp writes
    unfold Update.edit at edits
    rw [setHostEndpoint_host] at edits
    obtain ⟨_, ⟨⟩, edits⟩ := bind_ok.mp edits
    obtain ⟨after, same⟩ := writeValidated_ok.mp edits
    exact ⟨dnsName, mtu, port, named, valid, networkNamed, written, same ▸ after, same.symm⟩
  · rintro ⟨dnsName, applied⟩
    refine ⟨(), _, ⟨applied.mtu, rfl⟩, (), _, ⟨applied.port, rfl⟩, (), _, ⟨applied.named, rfl⟩,
      config.settings, _, ⟨config, _, ⟨applied.before, rfl, rfl⟩, rfl, rfl⟩, (), _, ⟨?_, rfl⟩,
      dnsName, config, ?_, ?_⟩
    · rw [member, if_neg Bool.false_ne_true]
      exact applied.networkNamed
    · rw [member]
      exact (writtenDnsName_ok applied.before).mpr ⟨rfl, applied.written⟩
    · rw [member, if_neg Bool.false_ne_true]
      unfold Update.edit
      rw [setHostEndpoint_host]
      refine bind_ok.mpr ⟨_, rfl, writeValidated_ok.mpr ⟨?_, ?_⟩⟩
      · have after := applied.after
        rw [applied.same] at after
        exact after
      · rw [applied.same]

/-! ### Changing one setting -/

theorem changeSettings_alone (valid : config.validate = .ok ()) (change : Update → Update) :
    (changeSettings change).alone config =
      (change config.settings.asUpdate).apply.alone config := by
  have current : networkSettingsUpdate.alone config = (.ok config.settings.asUpdate, config) := by
    unfold networkSettingsUpdate Settings.read
    simp only [Program.alone_bind_ok, alone_loadConfig_ok, Program.alone_pure_ok]
    exact ⟨_, _, ⟨_, _, ⟨valid, rfl, rfl⟩, rfl, rfl⟩, rfl, rfl⟩
  unfold changeSettings
  rw [Program.alone_bind, current]

/-- A change leaves the values of the other settings. -/
theorem change_keeps (setting : SettingChange) (update : Update) :
    (setting.change update).mtu = update.mtu ∧
      (setting.change update).listenPort = update.listenPort ∧
      (setting.change update).displayName = update.displayName ∧
      (setting.change update).dnsName = update.dnsName := by
  cases setting <;> exact ⟨rfl, rfl, rfl, rfl⟩

/-- The name of the network as it is written passes the check. -/
theorem changed_network (rewritable : Rewritable config) {setting : SettingChange}
    (fine : setting.Valid) :
    ((entered (setting.change config.settings.asUpdate).networkDisplayName).forM
      checkNetworkDisplayName : Except String Unit) = .ok () := by
  have old : ((entered config.interface.networkDisplayName).forM checkNetworkDisplayName :
      Except String Unit) = .ok () := by
    rw [rewritable.network]
    exact rewritable.networkNamed
  cases setting with
  | networkDisplayName text => exact fine
  | requireInviteApproval value => exact old
  | memberInvites value => exact old
  | direct value => exact old
  | autoConnect value => exact old

/-- All other values are written as they were. -/
theorem changed_interface (rewritable : Rewritable config) (setting : SettingChange) :
    (setting.change config.settings.asUpdate).interface false
        (entered (setting.change config.settings.asUpdate).displayName)
        config.interface.dnsName
        (entered (setting.change config.settings.asUpdate).networkDisplayName) config.interface =
      setting.result config.interface := by
  have number : tomlInteger (UInt64.ofNat config.interface.maxRecvFileMb) =
      config.interface.maxRecvFileMb := tomlInteger_ofNat _
  have display : entered config.settings.asUpdate.displayName = config.interface.displayName :=
    rewritable.display
  have network : entered config.settings.asUpdate.networkDisplayName =
      config.interface.networkDisplayName := rewritable.network
  have size : tomlInteger config.settings.asUpdate.maxRecvFileMb = config.interface.maxRecvFileMb :=
    number
  cases setting with
  | networkDisplayName text =>
      unfold SettingChange.change SettingChange.result Update.interface
      dsimp only
      rw [display, size]
      rfl
  | requireInviteApproval value =>
      unfold SettingChange.change SettingChange.result Update.interface
      dsimp only
      rw [display, network, size]
      rfl
  | memberInvites value =>
      unfold SettingChange.change SettingChange.result Update.interface
      dsimp only
      rw [display, network, size]
      rfl
  | direct value =>
      unfold SettingChange.change SettingChange.result Update.interface
      dsimp only
      rw [display, network, size]
      rfl
  | autoConnect value =>
      unfold SettingChange.change SettingChange.result Update.interface
      dsimp only
      rw [display, network, size]
      rfl

/-- A name of a network that is written passes the check of the configuration. -/
theorem checkNetworkNames_entered {interface : InterfaceConfig} {text : Option String}
    (fine : checkNetworkNames interface = .ok ())
    (checked : ((entered text).forM checkNetworkDisplayName : Except String Unit) = .ok ()) :
    checkNetworkNames { interface with networkDisplayName := entered text } = .ok () := by
  refine checkNetworkNames_ok.mpr ⟨(checkNetworkNames_ok.mp fine).1, ?_⟩
  intro name typed
  have typed : entered text = some name := typed
  have again := entered_entered text
  rw [typed] at checked again
  obtain ⟨_, long, controls⟩ := bind_ok.mp checked
  have trimmed : Text.trim name = name ∧ name ≠ "" := by
    unfold entered at again
    rw [Option.map_some, Option.filter_some] at again
    split at again
    · rename_i filled
      have same := Option.some.inj again
      rw [same] at filled
      exact ⟨same, of_decide_eq_true filled⟩
    · cases again
  rw [trimmed.1]
  exact ⟨not_or.mpr ⟨trimmed.2, refuseIf_ok.mp long⟩, refuseIf_ok.mp controls⟩

theorem changed_valid (valid : config.validate = .ok ()) {setting : SettingChange}
    (fine : setting.Valid) :
    ({ config with interface := setting.result config.interface } : Config).validate = .ok () := by
  obtain ⟨interface, peers, subnets, keys, names, deny, records, groups, rules, policy⟩ :=
    Config.validate_ok.mp valid
  have sameRecords : ∀ other : InterfaceConfig,
      checkRecords { config with interface := other } [] [] config.dnsRecords = .ok () :=
    fun other => (checkRecords_interface config other _).trans records
  rw [Config.validate_ok]
  cases setting with
  | networkDisplayName text =>
      exact ⟨interface, peers, subnets, keys, checkNetworkNames_entered names fine, deny,
        sameRecords _, groups, rules, policy⟩
  | requireInviteApproval value =>
      exact ⟨interface, peers, subnets, keys, names, deny, sameRecords _, groups, rules,
        policy⟩
  | memberInvites value =>
      exact ⟨interface, peers, subnets, keys, names, deny, sameRecords _, groups, rules,
        policy⟩
  | direct value =>
      exact ⟨interface, peers, subnets, keys, names, deny, sameRecords _, groups, rules,
        policy⟩
  | autoConnect value =>
      exact ⟨interface, peers, subnets, keys, names, deny, sameRecords _, groups, rules,
        policy⟩

/-- The settings can be changed as long as nobody else has the fixed name of the host. -/
theorem settingWorks_iff (rewritable : Rewritable config) :
    SettingWorks config ↔ HostLabelFree config := by
  constructor
  · intro works label fixed
    have done := works (.direct config.interface.direct) trivial
    rw [changeSettings_alone rewritable.valid] at done
    obtain ⟨dnsName, applied⟩ := (apply_ok rewritable.host _).mp done
    have made := rewritable.label label fixed
    have text : (SettingChange.change (.direct config.interface.direct)
        config.settings.asUpdate).dnsName = some label := fixed
    have written := applied.written
    rw [text] at written
    have typed := entered_label (normalizeDnsName_fine made)
    cases written with
    | nothing blank => cases typed.symm.trans blank
    | label other made' free =>
        obtain rfl := Option.some.inj (typed.symm.trans other)
        obtain rfl := Except.ok.inj (made.symm.trans made')
        exact free
  · intro free setting fine
    rw [changeSettings_alone rewritable.valid]
    obtain ⟨mtu, port, display, dnsName⟩ := change_keeps setting config.settings.asUpdate
    refine (apply_ok rewritable.host _).mpr ⟨config.interface.dnsName, ?_⟩
    constructor
    · rw [mtu]
      exact rewritable.mtu
    · rw [port]
      exact rewritable.port
    · rw [display]
      have same : entered config.settings.asUpdate.displayName = config.interface.displayName :=
        rewritable.display
      rw [same]
      exact rewritable.named
    · exact rewritable.valid
    · exact changed_network rewritable fine
    · rw [dnsName]
      change WrittenAs config config.interface.dnsName config.interface.dnsName
      cases fixed : config.interface.dnsName with
      | none => exact .nothing rfl
      | some label =>
          have made := rewritable.label label fixed
          exact .label (entered_label (normalizeDnsName_fine made)) made (free label fixed)
    · exact changed_valid rewritable.valid fine
    · rw [changed_interface rewritable setting]

/-! ### Steps -/

theorem mem_taken_host {label : String} : label ∈ takenDnsLabels config .host ↔
    (∃ peer ∈ config.peers, peerDnsLabel peer = label) ∨
      ∃ record ∈ config.dnsRecords, record.under = none ∧ record.name = label := by
  have all : config.peers.filter (fun peer => DnsExclude.host ≠ .peer peer.publicKey) =
      config.peers :=
    List.filter_eq_self.mpr (fun peer _ => decide_eq_true (fun same => by cases same))
  unfold takenDnsLabels
  rw [if_pos rfl, List.nil_append, all, List.mem_append, List.mem_map, List.mem_map]
  simp only [List.mem_filter, Option.isNone_iff_eq_none, and_assoc]

/-- The name of the host stays free when members and records keep their names or go. -/
theorem hostLabelFree_of_fewer (free : HostLabelFree config)
    (interface : next.interface = config.interface)
    (peers : ∀ peer ∈ next.peers, ∃ old ∈ config.peers, peerDnsLabel peer = peerDnsLabel old)
    (records : ∀ record ∈ next.dnsRecords, record ∈ config.dnsRecords) : HostLabelFree next := by
  intro label fixed taken
  rw [interface] at fixed
  refine free label fixed (mem_taken_host.mpr ?_)
  rcases mem_taken_host.mp taken with ⟨peer, listed, same⟩ | ⟨record, listed, top, same⟩
  · obtain ⟨old, there, kept⟩ := peers peer listed
    exact .inl ⟨old, there, kept.symm.trans same⟩
  · exact .inr ⟨record, records record listed, top, same⟩

theorem Rewritable.of_interface (rewritable : Rewritable config)
    (interface : next.interface = config.interface) (valid : next.validate = .ok ())
    (host : IsHost next) : Rewritable next where
  valid := valid
  host := host
  display := by
    rw [interface]
    exact rewritable.display
  named := by
    rw [interface]
    exact rewritable.named
  network := by
    rw [interface]
    exact rewritable.network
  networkNamed := by
    rw [interface]
    exact rewritable.networkNamed
  port := by
    rw [interface]
    exact rewritable.port
  mtu := by
    rw [interface]
    exact rewritable.mtu
  label := by
    rw [interface]
    exact rewritable.label

/-- Editing the members of one key. -/
def Config.withEdited (config : Config) (key : PublicKey) (edit : PeerConfig → PeerConfig) :
    Config :=
  { config with peers := config.peers.map (fun peer => if peer.publicKey = key then edit peer else peer) }

section Edited

variable {key : PublicKey} {edit : PeerConfig → PeerConfig}

theorem isHost_withEdited (host : IsHost config)
    (keeps : ∀ peer, (edit peer).endpoint = peer.endpoint) : IsHost (config.withEdited key edit) := by
  intro peer listed
  obtain ⟨old, there, rfl⟩ := List.mem_map.mp listed
  split
  · rw [keeps]
    exact host old there
  · exact host old there

/-- The name of the host stays free when the edited member gets another one. -/
theorem hostLabelFree_withEdited (valid : config.validate = .ok ()) (free : HostLabelFree config)
    {target : PeerConfig} (listed : target ∈ config.peers) (keyed : target.publicKey = key) :
    HostLabelFree (config.withEdited key edit) ↔
      ∀ label, config.interface.dnsName = some label → peerDnsLabel (edit target) ≠ label := by
  constructor
  · intro later label fixed same
    refine later label fixed (mem_taken_host.mpr (.inl ⟨edit target, ?_, same⟩))
    refine List.mem_map.mpr ⟨target, listed, ?_⟩
    rw [if_pos keyed]
  · intro apart label fixed taken
    rcases mem_taken_host.mp taken with ⟨peer, there, same⟩ | record
    · obtain ⟨old, was, rfl⟩ := List.mem_map.mp there
      split at same
      · rename_i sameKey
        have only : old = target := List.inj_on_of_nodup_map
          (ValidConfig.mk config valid).keys_nodup was listed (sameKey.trans keyed.symm)
        rw [only] at same
        exact apart label fixed same
      · exact free label fixed (mem_taken_host.mpr (.inl ⟨old, was, same⟩))
    · exact free label fixed (mem_taken_host.mpr (.inr record))

end Edited

theorem findPeer_mem {selector : Selector} {target : PeerConfig}
    (found : findPeer config selector = .ok target) : target ∈ config.peers := by
  have only := findPeer_ok.mp found
  have listed : target ∈ config.peers.filter selector.matches := by
    rw [only]
    exact List.mem_cons_self
  exact (List.mem_filter.mp listed).1

/-- A rename changes the display name of its target. -/
theorem renamePeer_target {selector : Selector} {newName : String}
    (done : (HostProgram.renamePeer selector newName).alone config = (.ok (), next)) :
    ∃ target, findPeer config selector = .ok target ∧ next.validate = .ok () ∧
      next = config.withEdited target.publicKey (fun peer => { peer with name := some newName }) := by
  unfold HostProgram.renamePeer renamePlan at done
  simp only [Program.alone_bind_ok, Program.alone_read_ok, Program.alone_lift_ok,
    Program.alone_write_ok, bind_ok, refuseIf_ok, pure_ok] at done
  obtain ⟨_, _, ⟨rfl, rfl⟩, key, _, ⟨⟨_, _, _, _, target, found, _, _, rfl⟩, rfl⟩, edited⟩ := done
  obtain ⟨valid, same⟩ := editPeer_next edited
  exact ⟨target, found, valid, same⟩

theorem setSubnets_target {selector : Selector} {subnets : List Ipv4Net} {shown : String}
    (done : (HostProgram.setSubnets selector subnets).alone config = (.ok shown, next)) :
    ∃ key, next.validate = .ok () ∧
      next = config.withEdited key (fun peer => { peer with subnets := subnets }) := by
  unfold HostProgram.setSubnets HostProgram.editTarget HostProgram.editLocated at done
  simp only [Program.alone_bind_ok, alone_loadConfig_ok, Program.alone_lift_ok,
    Program.alone_write_ok, Program.alone_pure_ok, bind_ok] at done
  obtain ⟨_, _, ⟨_, rfl, rfl⟩, target, _, ⟨_, rfl⟩, _, _, ⟨_, _, _, _, edited⟩, _, rfl⟩ := done
  obtain ⟨valid, same⟩ := editPeer_next edited
  exact ⟨target.publicKey, valid, same⟩

/-- Settings that have been written can be written again, and the name of the host is free. -/
theorem update_rewritable (host : IsHost config) {values : Update}
    (done : values.apply.alone config = (.ok (), next)) : Rewritable next ∧ HostLabelFree next := by
  obtain ⟨dnsName, applied⟩ := (apply_ok host values).mp done
  have valid := applied.after
  obtain rfl := applied.same
  constructor
  · refine ⟨valid, host, entered_entered _, applied.named, entered_entered _, applied.networkNamed,
      applied.port, applied.mtu, ?_⟩
    intro label fixed
    cases applied.written with
    | nothing blank => cases fixed
    | label typed made free =>
        obtain rfl := Option.some.inj fixed
        exact normalizeDnsName_again made
  · intro label fixed taken
    cases applied.written with
    | nothing blank => cases fixed
    | label typed made free =>
        obtain rfl := Option.some.inj fixed
        exact free taken

/-- The new display name does not make a member the name of the host. -/
def RenameApart (config : Config) (selector : Selector) (newName : String) : Prop :=
  ∀ target label, findPeer config selector = .ok target → config.interface.dnsName = some label →
    peerDnsLabel { target with name := some newName } ≠ label

/-- The steps after which the settings can still be written. -/
def SettingOp.KeepsLabel (op : SettingOp) (config : Config) : Prop :=
  match op with
  | .renamePeer selector newName => RenameApart config selector newName
  | .setPeerDisplayNameByIp memberIp input => RenameApart config (.ip memberIp) (Text.trim input)
  | _ => True

theorem rename_step (rewritable : Rewritable config) {selector : Selector} {newName : String}
    (done : (HostProgram.renamePeer selector newName).alone config = (.ok (), next)) :
    Rewritable next ∧
      (HostLabelFree config → (HostLabelFree next ↔ RenameApart config selector newName)) := by
  obtain ⟨target, found, valid, rfl⟩ := renamePeer_target done
  constructor
  · exact rewritable.of_interface rfl valid (isHost_withEdited rewritable.host (fun _ => rfl))
  · intro free
    rw [hostLabelFree_withEdited rewritable.valid free (findPeer_mem found) rfl]
    constructor
    · intro apart other label found' fixed
      obtain rfl := Except.ok.inj (found.symm.trans found')
      exact apart label fixed
    · exact fun apart label fixed => apart target label found fixed

theorem dnsName_step (rewritable : Rewritable config) {selector : Selector} {input : String}
    {outcome : DnsNameOutcome}
    (done : (HostProgram.setPeerDnsName selector input).alone config = (.ok outcome, next)) :
    Rewritable next ∧ (HostLabelFree config → HostLabelFree next) := by
  have effect : next.validate = .ok () ∧ NameEffect (fun key => ⟨key.bytes⟩) config
      (.setPeerDnsName selector input) next := setPeerDnsName_effect done
  obtain ⟨valid, effect⟩ := effect
  cases effect with
  | peerKept target found made same => exact ⟨rewritable, fun free => free⟩
  | peerNamed target found made free =>
      rename_i label
      change (config.withEdited target.publicKey
        (fun peer => { peer with dnsName := some label })).validate = .ok () at valid
      change Rewritable (config.withEdited target.publicKey
        (fun peer => { peer with dnsName := some label })) ∧ (HostLabelFree config →
          HostLabelFree (config.withEdited target.publicKey
            (fun peer => { peer with dnsName := some label })))
      constructor
      · exact rewritable.of_interface rfl valid (isHost_withEdited rewritable.host (fun _ => rfl))
      · intro hostFree
        rw [hostLabelFree_withEdited rewritable.valid hostFree (findPeer_mem found) rfl]
        rintro hostLabel fixed same
        -- The label of the host is one of those that are taken.
        have hosts : hostDnsLabel config = hostLabel := by
          unfold hostDnsLabel
          rw [fixed]
          rfl
        have given : peerDnsLabel { target with dnsName := some label } = label :=
          peerDnsLabel_named rfl
        rw [← given, same, ← hosts] at free
        exact free (host_taken (fun excluded => by cases excluded))

theorem remove_step (rewritable : Rewritable config) {selector : Selector} {removed : RemovedPeer}
    (done : (HostProgram.removePeer selector).alone config = (.ok removed, next)) :
    Rewritable next ∧ (HostLabelFree config → HostLabelFree next) := by
  have effect : next.validate = .ok () ∧ NameEffect (fun key => ⟨key.bytes⟩) config
      (.removePeer selector) next := removePeer_effect done
  obtain ⟨valid, effect⟩ := effect
  cases effect with
  | peerRemoved interface peers records =>
      constructor
      · exact rewritable.of_interface interface valid
          (fun peer listed => rewritable.host peer (peers.mem listed))
      · intro free
        exact hostLabelFree_of_fewer free interface
          (fun peer listed => ⟨peer, peers.mem listed, rfl⟩)
          (fun record listed => records.mem listed)

theorem subnets_step (rewritable : Rewritable config) {selector : Selector}
    {subnets : List Ipv4Net} {shown : String}
    (done : (HostProgram.setSubnets selector subnets).alone config = (.ok shown, next)) :
    Rewritable next ∧ (HostLabelFree config → HostLabelFree next) := by
  obtain ⟨key, valid, rfl⟩ := setSubnets_target done
  constructor
  · exact rewritable.of_interface rfl valid (isHost_withEdited rewritable.host (fun _ => rfl))
  · intro free
    refine hostLabelFree_of_fewer free rfl ?_ (fun _ listed => listed)
    intro peer listed
    obtain ⟨old, there, rfl⟩ := List.mem_map.mp listed
    refine ⟨old, there, ?_⟩
    split
    · rfl
    · rfl

/-- What a step does for the next ones. -/
theorem settingOp_step (rewritable : Rewritable config) {op : SettingOp}
    (happens : op.step config = some next) :
    Rewritable next ∧ (HostLabelFree config → (HostLabelFree next ↔ op.KeepsLabel config)) := by
  have always : ∀ {next : Config}, Rewritable next ∧ (HostLabelFree config → HostLabelFree next) →
      Rewritable next ∧ (HostLabelFree config → (HostLabelFree next ↔ True)) :=
    fun both => ⟨both.1, fun free => iff_of_true (both.2 free) trivial⟩
  cases op with
  | renamePeer selector newName =>
      obtain ⟨_, done⟩ := succeeded_some.mp happens
      exact rename_step rewritable done
  | setPeerDisplayNameByIp memberIp input =>
      obtain ⟨_, both⟩ := succeeded_some.mp happens
      unfold setPeerDisplayNameByIp at both
      obtain ⟨_, _, done, rest⟩ := Program.alone_bind_ok.mp both
      obtain ⟨_, rfl⟩ := Program.alone_pure_ok.mp rest
      exact rename_step rewritable done
  | setPeerDnsName selector input =>
      obtain ⟨_, done⟩ := succeeded_some.mp happens
      exact always (dnsName_step rewritable done)
  | removePeer selector =>
      obtain ⟨_, done⟩ := succeeded_some.mp happens
      exact always (remove_step rewritable done)
  | setSubnets selector subnets =>
      obtain ⟨_, done⟩ := succeeded_some.mp happens
      exact always (subnets_step rewritable done)
  | update values =>
      obtain ⟨_, done⟩ := succeeded_some.mp happens
      obtain ⟨later, free⟩ := update_rewritable rewritable.host done
      exact ⟨later, fun _ => iff_of_true free trivial⟩

/-- From settings that were written on, each setting can be changed alone in every configuration that
is reached exactly when no rename gives a member the fixed name of the host. -/
theorem setting_works_iff {original start final : Config} {written : Update}
    {ops : List SettingOp} (host : IsHost original)
    (begins : written.apply.alone original = (.ok (), start))
    (reached : Runs.run SettingOp.step ops start = some final) :
    (∀ done, done <+: ops → ∀ middle, Runs.run SettingOp.step done start = some middle →
        SettingWorks middle) ↔
      Runs.Along SettingOp.step SettingOp.KeepsLabel ops start := by
  obtain ⟨rewritable, free⟩ := update_rewritable host begins
  have keep : ∀ (op : SettingOp) (config next : Config), Rewritable config →
      op.step config = some next → Rewritable next :=
    fun op config next stays happens => (settingOp_step stays happens).1
  rw [← Runs.safe_iff_along Rewritable HostLabelFree keep
    (fun op config next stays here happens => (settingOp_step stays happens).2 here)
    rewritable free reached]
  constructor
  · intro works done front middle reaches
    exact (settingWorks_iff (Runs.run_keeps Rewritable keep rewritable reaches)).mp
      (works done front middle reaches)
  · intro frees done front middle reaches
    exact (settingWorks_iff (Runs.run_keeps Rewritable keep rewritable reaches)).mpr
      (frees done front middle reaches)

/-- A host with the name `nas`, and a member from before the DNS names were fixed. -/
def namedHost : Config where
  interface := { address := Ipv4Net.slash24 0x0A630001#32 }
  peers := [{
    name := some "alice"
    publicKey := ⟨9⟩
    allowedIps := [Ipv4Net.host 0x0A630002#32] }]

def nasSettings : Update where
  displayName := none
  dnsName := some "nas"
  networkDisplayName := none
  listenPort := none
  mtu := 1420
  hostEndpoint := none
  direct := true
  maxRecvFileMb := 100
  requireInviteApproval := false
  memberInvites := true
  autoConnect := false

def nasHost : Config :=
  { namedHost with interface := { namedHost.interface with dnsName := some "nas" } }

theorem nasHost_written : nasSettings.apply.alone namedHost = (.ok (), nasHost) := by
  decide

theorem namedHost_isHost : IsHost namedHost := by
  intro peer listed
  rw [List.mem_singleton.mp listed]

/-- A member is renamed to a name of its own. -/
theorem setting_works_bob : ∃ final,
    Runs.run SettingOp.step [.setPeerDisplayNameByIp 0x0A630002#32 "Bob"] nasHost = some final ∧
      SettingWorks final := by
  have ends : (Runs.run SettingOp.step [.setPeerDisplayNameByIp 0x0A630002#32 "Bob"]
      nasHost).isSome = true := by decide
  obtain ⟨final, reached⟩ := Option.isSome_iff_exists.mp ends
  refine ⟨final, reached, ?_⟩
  refine (setting_works_iff namedHost_isHost nasHost_written reached).mpr ?_ _
    (List.prefix_refl _) final reached
  refine ⟨?_, fun _ _ => trivial⟩
  intro target label found fixed
  obtain rfl := Option.some.inj fixed
  have only := findPeer_mem found
  obtain rfl := List.mem_singleton.mp only
  decide

/-- The member is given the display name `NAS`, and no setting can be changed any more. -/
theorem settings_stuck : ¬ ∀ (original start final : Config) (written : Update)
    (ops : List SettingOp), IsHost original → written.apply.alone original = (.ok (), start) →
      Runs.run SettingOp.step ops start = some final → SettingWorks final := by
  intro claimed
  have ends : (Runs.run SettingOp.step [.setPeerDisplayNameByIp 0x0A630002#32 "NAS"]
      nasHost).isSome = true := by decide
  obtain ⟨final, reached⟩ := Option.isSome_iff_exists.mp ends
  have works := claimed namedHost nasHost final nasSettings _ namedHost_isHost nasHost_written
    reached (.autoConnect true) trivial
  have refused : (Runs.run SettingOp.step [.setPeerDisplayNameByIp 0x0A630002#32 "NAS"]
      nasHost).map (fun final => ((changeSettings (SettingChange.change (.autoConnect true))).alone
        final).1) = some (.error "DNS 名「nas」はこのネットワークで既に使用されています") := by
    decide
  rw [reached, Option.map_some, works] at refused
  cases refused

end PeerCove
