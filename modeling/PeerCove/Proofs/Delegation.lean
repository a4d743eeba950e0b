/-
Module: PeerCove.Proofs.Delegation
Layer: Proofs
Purpose: What administrators among the members can do to `host.toml`, in any order of their
  requests and of grants and revocations by the owner of the host.
Trusted boundary: none
Main exports: RequestRecord.WithinLimits, AdminMessage.Careful, delegated_edits,
  delegation_limited
-/
import PeerCove.Host.Admin
import PeerCove.Library.Runs
import PeerCove.Proofs.EditFrames

namespace PeerCove

open Fallible FilePrograms

/-! ### The limits -/

/-- The requests about the access control. -/
def AdminRequest.editsPolicy : AdminRequest → Bool
  | .aclWrite _ => true
  | .permGroupCreate _ _ => true
  | .permGroupRename _ _ => true
  | .permGroupSetMembers _ _ => true
  | .permGroupDelete _ => true
  | _ => false

def DelegatedRequest.editsPolicy : DelegatedRequest → Bool
  | .dns _ => false
  | .op asked => asked.editsPolicy

/-- The configuration names the sender as an administrator. -/
def Delegates (config : Config) (memberIp : Ipv4Addr) : Prop :=
  ∃ actor, findPeer config (.ip memberIp) = .ok actor ∧ actor.admin = true

/-- The limits of what a message may do to the file. -/
structure RequestRecord.WithinLimits (record : RequestRecord) : Prop where
  admitted : record.write ≠ none →
    record.message.isolated = false ∧ Delegates record.loaded record.message.ip
  allowed : ∀ before after, record.write = some (before, after) →
    Allowed record.message.ip record.message.request.editsPolicy before after
  refused : ∀ result, record.result = some result → result.accepted = false → record.write = none

/-! ### Where the program stays within them -/

/-- The host's display name and its fixed DNS name are written back as they were read. -/
def SettledNames (config : Config) : Prop :=
  entered config.interface.displayName = config.interface.displayName ∧
    (config.hostEndpoint.isSome = false →
      (entered config.interface.dnsName = none → config.interface.dnsName = none) ∧
      ∀ name ∈ entered config.interface.dnsName, ∀ label ∈ Names.dnsLabel name,
        config.interface.dnsName = some label)

instance (config : Config) : Decidable (SettledNames config) :=
  inferInstanceAs (Decidable (_ ∧ (_ → (_ → _) ∧ _)))

/-- A change of one setting needs settled names, the removal of a member a clean one. -/
def AdminRequest.Careful (config : Config) : AdminRequest → Prop
  | .removeMember ip => ∀ target ∈ (findPeer config (.ip ip)).toOption, CleanRemoval config target
  | .setRequireApproval _ => SettledNames config
  | .setMemberInvites _ => SettledNames config
  | .setNetworkDisplayName _ => SettledNames config
  | _ => True

instance (config : Config) : ∀ request : AdminRequest, Decidable (request.Careful config)
  | .removeMember ip =>
      inferInstanceAs (Decidable (∀ target ∈ (findPeer config (.ip ip)).toOption,
        CleanRemoval config target))
  | .setRequireApproval _ | .setMemberInvites _ | .setNetworkDisplayName _ =>
      inferInstanceAs (Decidable (SettledNames config))
  | .renameMember .. | .approveMember .. | .setCanInvite .. | .setMemberDnsName ..
  | .readNetworkSettings | .aclRead | .aclWrite .. | .setSubnets .. | .dnsCheckNow | .dnsListFull
  | .permGroupCreate .. | .permGroupRename .. | .permGroupSetMembers .. | .permGroupDelete .. =>
      isTrue trivial

/-- A message of an administrator is careful on the configuration it finds. -/
def AdminMessage.Careful (config : Config) (message : AdminMessage) : Prop :=
  (findPeer config (.ip message.ip)).toOption.any PeerConfig.admin = true →
    match message.request with
    | .dns _ => True
    | .op op => op.Careful config

instance (config : Config) : ∀ message : AdminMessage, Decidable (message.Careful config)
  | ⟨_, _, .dns _, _⟩ => isTrue (fun _ => trivial)
  | ⟨ip, _, .op asked, _⟩ =>
      inferInstanceAs (Decidable ((findPeer config (.ip ip)).toOption.any PeerConfig.admin = true →
        asked.Careful config))

/-- Every message that gets the request lock is careful. -/
def CarefulEvent {κ : Type} (event : AdminEvent κ) (state : AdminSystem κ) : Prop :=
  match event with
  | .begin index _ => ∀ message ∈ state.waiting[index]?, message.Careful state.file
  | _ => True

instance {κ : Type} : ∀ (event : AdminEvent κ) (state : AdminSystem κ),
    Decidable (CarefulEvent event state)
  | .begin index _, state =>
      inferInstanceAs (Decidable (∀ message ∈ state.waiting[index]?, message.Careful state.file))
  | .connect .., _ | .disconnect .., _ | .isolate .., _ | .receive .., _ | .proceed, _
  | .grant .., _ | .proceedGrant .., _ => isTrue trivial

/-! ### Configurations a request meets -/

/-- What every configuration satisfies that differs from a valid one in the admin flags. -/
structure Sound (doc : Config) : Prop where
  once : (doc.peers.map PeerConfig.publicKey).Nodup
  ids : (doc.dnsRecords.filterMap DnsRecordConfig.id).Nodup
  names : (doc.dnsRecords.map (fun record => (record.name, record.under))).Nodup
  groups : (doc.acl.groups.map AclGroup.id).Nodup

theorem sound_of_valid {doc : Config} (valid : doc.validate = .ok ()) : Sound doc := by
  rcases Config.validate_ok.mp valid with ⟨_, _, _, keys, _, _, records, groups, _, _⟩
  exact {
    once := checkKeys_ok.mp keys
    ids := (checkRecords_ids records).1
    names := (checkRecords_names records).1
    groups := (checkIds_nodup groups).1 }

theorem SameButAdmin.sound {one two : Config} (same : SameButAdmin one two) (sound : Sound one) :
    Sound two where
  once := same.keys ▸ sound.once
  ids := same.dnsRecords ▸ sound.ids
  names := same.dnsRecords ▸ sound.names
  groups := same.acl ▸ sound.groups

theorem found_mem {config : Config} {ip : Ipv4Addr} {target : PeerConfig}
    (found : findPeer config (.ip ip) = .ok target) :
    target ∈ config.peers ∧ target.virtualIp = some ip := by
  have listed : target ∈ config.peers.filter (Selector.ip ip).matches := by
    rw [findPeer_ok.mp found]
    exact List.mem_singleton.mpr rfl
  rcases List.mem_filter.mp listed with ⟨member, matches_⟩
  exact ⟨member, of_decide_eq_true matches_⟩

section

variable {loaded : Config} {memberIp ip : Ipv4Addr} {config doc : Config} {target : PeerConfig}

/-- The target of another address is another peer in every version of the file. -/
theorem target_apart (same : SameButAdmin loaded config) (sound : Sound config)
    (found : findPeer config (.ip ip) = .ok target) (other : ip ≠ memberIp)
    (later : SameButAdmin loaded doc) :
    ∀ peer ∈ doc.peers, peer.virtualIp = some memberIp → peer.publicKey ≠ target.publicKey := by
  intro peer listed own sameKey
  rcases (later.symm.trans same).peer listed with ⟨before, member, itsKey, itsIp⟩
  rcases found_mem found with ⟨targetListed, targetIp⟩
  have equal : before = target :=
    List.inj_on_of_nodup_map sound.once member targetListed (itsKey.trans sameKey)
  rw [← itsIp, equal, targetIp] at own
  exact other (Option.some.inj own)

theorem target_here (same : SameButAdmin loaded config)
    (found : findPeer config (.ip ip) = .ok target) (later : SameButAdmin loaded doc) :
    ∃ peer ∈ doc.peers, peer.publicKey = target.publicKey ∧ peer.virtualIp = target.virtualIp :=
  (same.symm.trans later).peer (found_mem found).1

end

/-! ### The operations on behalf of a member -/

/-- The file passes the check that every program makes when it loads it. -/
def Loads (file : Config) : Prop :=
  file.validate = .ok ()

/-- The program stays within the limits, whatever the owner grants meanwhile. -/
structure OnBehalf {α : Type} (loaded : Config) (memberIp : Ipv4Addr) (policy : Bool)
    (program : HostProgram α) : Prop where
  edits : program.Edits (SameButAdmin loaded) Loads (Allowed memberIp policy)

section

variable {α β : Type} {loaded : Config} {memberIp ip : Ipv4Addr} {policy : Bool}

theorem OnBehalf.bind {post : α → Prop} {program : HostProgram α} {rest : α → HostProgram β}
    (looks : program.Looks (SameButAdmin loaded) post)
    (then_ : ∀ value, post value → OnBehalf loaded memberIp policy (rest value)) :
    OnBehalf loaded memberIp policy (program >>= rest) :=
  ⟨Program.Edits.bind looks (fun value found => (then_ value found).edits)⟩

/-- A check before the rest. -/
theorem OnBehalf.check {outcome : Except String α} {rest : α → HostProgram β}
    (then_ : ∀ value, outcome = .ok value → OnBehalf loaded memberIp policy (rest value)) :
    OnBehalf loaded memberIp policy (liftM outcome >>= rest) :=
  OnBehalf.bind (Program.looks_lift (fun _ done => done)) then_

/-- The answer after the work. -/
theorem OnBehalf.answer {program : HostProgram α} {result : α → β}
    (onBehalf : OnBehalf loaded memberIp policy program) :
    OnBehalf loaded memberIp policy (program >>= fun value => pure (result value)) :=
  ⟨Program.Edits.then_settles onBehalf.edits (fun _ => .finish) (fun _ => .ok)⟩

theorem onBehalf_write {change : Config → Except String Config}
    (makes : ∀ doc written, SameButAdmin loaded doc → change doc = .ok written →
      Allowed memberIp policy doc written ∧ Loads written) :
    OnBehalf loaded memberIp policy (Program.write change) :=
  ⟨Program.edits_write makes⟩

theorem looks_loadConfig {rely : Config → Prop} :
    loadConfig.Looks rely (fun config => rely config ∧ config.validate = .ok ()) := by
  apply Program.Looks.bind Program.looks_read
  intro config same
  apply Program.Looks.bind (Program.looks_lift (fun _ done => done))
  intro checked valid
  exact .ok ⟨same, valid⟩

/-! ### Peers -/

theorem editTarget_onBehalf {missing : String} {change : PeerConfig → PeerConfig}
    (other : ip ≠ memberIp)
    (keeps : ∀ peer, (change peer).publicKey = peer.publicKey ∧
      (change peer).admin = peer.admin ∧ (change peer).virtualIp = peer.virtualIp) :
    OnBehalf loaded memberIp policy (HostProgram.editTarget missing (.ip ip) change) := by
  apply OnBehalf.bind looks_loadConfig
  intro config here
  apply OnBehalf.check
  intro target found
  have sound := sound_of_valid here.2
  apply OnBehalf.answer
  apply onBehalf_write
  intro doc written later done
  rcases editPeer_ok (editLocated_ok done) with ⟨valid, rfl⟩
  refine ⟨allowed_change ((here.1.symm.trans later).sound sound).once keeps ?_, valid⟩
  exact target_apart here.1 sound found other later

theorem removePeer_onBehalf (other : ip ≠ memberIp)
    (clean : ∀ target, findPeer loaded (.ip ip) = .ok target → CleanRemoval loaded target) :
    OnBehalf loaded memberIp policy (HostProgram.removePeer (.ip ip)) := by
  apply OnBehalf.bind Program.looks_read
  intro config same
  apply OnBehalf.check
  intro plan planned
  unfold removalPlan at planned
  rcases bind_ok.mp planned with ⟨⟨⟩, valid, planned⟩
  rcases bind_ok.mp planned with ⟨target, found, made⟩
  obtain rfl := pure_ok.mp made
  have sound := sound_of_valid valid
  apply OnBehalf.answer
  apply onBehalf_write
  intro doc written later done
  unfold RemovalPlan.edit at done
  rcases bind_ok.mp done with ⟨⟨⟩, _, done⟩
  rcases bind_ok.mp done with ⟨⟨⟩, _, done⟩
  rcases writeValidated_ok.mp done with ⟨writable, rfl⟩
  have between := same.symm.trans later
  have docSound := between.sound sound
  have cleanDoc : CleanRemoval doc target := by
    rcases same.symm.findPeer found with ⟨known, foundToo, key, address⟩
    exact (clean known foundToo).congr later.acl later.dnsRecords key address
  refine ⟨?_, writable⟩
  rw [removal_congr between.acl between.dnsRecords]
  apply allowed_removal cleanDoc docSound.once docSound.ids docSound.groups
  · exact target_here same found later
  · exact target_apart same sound found other later

theorem renamePeer_onBehalf {newName : String} (other : ip ≠ memberIp) :
    OnBehalf loaded memberIp policy (HostProgram.renamePeer (.ip ip) newName) := by
  apply OnBehalf.bind Program.looks_read
  intro config same
  apply OnBehalf.check
  intro key planned
  unfold renamePlan at planned
  rcases bind_ok.mp planned with ⟨⟨⟩, _, planned⟩
  rcases bind_ok.mp planned with ⟨⟨⟩, valid, planned⟩
  rcases bind_ok.mp planned with ⟨target, found, planned⟩
  rcases bind_ok.mp planned with ⟨⟨⟩, _, made⟩
  obtain rfl := pure_ok.mp made
  have sound := sound_of_valid valid
  apply onBehalf_write
  intro doc written later done
  rcases editPeer_ok done with ⟨writable, rfl⟩
  refine ⟨allowed_change ((same.symm.trans later).sound sound).once ?_ ?_, writable⟩
  · exact fun _ => ⟨rfl, rfl, rfl⟩
  · exact target_apart same sound found other later

theorem setPeerDnsName_onBehalf {input : String} (other : ip ≠ memberIp) :
    OnBehalf loaded memberIp policy (HostProgram.setPeerDnsName (.ip ip) input) := by
  apply OnBehalf.bind Program.looks_read
  intro config same
  apply OnBehalf.check
  intro plan planned
  cases plan with
  | unchanged label => exact ⟨.finish⟩
  | apply key display label =>
      unfold dnsNamePlan at planned
      split at planned
      · cases planned
      rcases bind_ok.mp planned with ⟨⟨⟩, valid, planned⟩
      rcases bind_ok.mp planned with ⟨target, found, planned⟩
      split at planned
      · cases planned
      rcases bind_ok.mp planned with ⟨⟨⟩, _, made⟩
      cases pure_ok.mp made
      have sound := sound_of_valid valid
      apply OnBehalf.answer
      apply onBehalf_write
      intro doc written later done
      rcases editPeer_ok done with ⟨writable, rfl⟩
      refine ⟨allowed_change ((same.symm.trans later).sound sound).once ?_ ?_, writable⟩
      · exact fun _ => ⟨rfl, rfl, rfl⟩
      · exact target_apart same sound found other later

theorem approveInvite_onBehalf {approvedAt : Nat} (other : ip ≠ memberIp) :
    OnBehalf loaded memberIp policy (HostProgram.approveInvite (.ip ip) approvedAt) := by
  apply OnBehalf.bind looks_loadConfig
  intro config here
  apply OnBehalf.check
  intro target found
  apply OnBehalf.check
  intro _ _
  apply OnBehalf.check
  intro _ _
  split
  · exact ⟨.finish⟩
  · have sound := sound_of_valid here.2
    apply onBehalf_write
    intro doc written later done
    have docSound := (here.1.symm.trans later).sound sound
    unfold HostProgram.approvalEdit at done
    rcases bind_ok.mp done with ⟨⟨⟩, _, done⟩
    rcases bind_ok.mp done with ⟨⟨⟩, _, done⟩
    rcases writeValidated_ok.mp done with ⟨writable, rfl⟩
    refine ⟨?_, writable⟩
    rw [changePeer_eq_map docSound.once]
    refine allowed_change docSound.once ?_ ?_
    · exact fun _ => ⟨rfl, rfl, rfl⟩
    · exact target_apart here.1 sound found other later

/-! ### The policy -/

theorem writePolicy_onBehalf {written : PolicySettings} (sound : Sound loaded) :
    OnBehalf loaded memberIp true (HostProgram.writePolicy written) := by
  apply onBehalf_write
  intro doc after later done
  rcases writeValidated_ok.mp done with ⟨writable, rfl⟩
  exact ⟨allowed_acl _ (later.sound sound).once, writable⟩

/-- A policy made of the current one is written. -/
theorem editPolicy_onBehalf {plan : Config → Except String PolicySettings} (sound : Sound loaded) :
    OnBehalf loaded memberIp true (do
      let policy ← (plan (← Program.read) : Except String PolicySettings)
      HostProgram.writePolicy policy) := by
  apply OnBehalf.bind Program.looks_read
  intro config _
  apply OnBehalf.check
  intro policy _
  exact writePolicy_onBehalf sound

theorem permGroupCreate_onBehalf {name random : String} {members : List PublicKey}
    (sound : Sound loaded) :
    OnBehalf loaded memberIp true (HostProgram.permGroupCreate name members random) := by
  apply OnBehalf.bind Program.looks_read
  intro config _
  apply OnBehalf.check
  intro created _
  exact OnBehalf.answer (writePolicy_onBehalf sound)

/-! ### Settings -/

theorem looks_settings :
    Settings.read.Looks (SameButAdmin loaded) (fun settings => settings = loaded.settings) := by
  apply Program.Looks.bind looks_loadConfig
  intro config here
  exact .ok here.1.symm.settings

theorem looks_networkSettings :
    networkSettingsUpdate.Looks (SameButAdmin loaded)
      (fun update => update = loaded.settings.asUpdate) := by
  apply Program.Looks.bind looks_settings
  intro settings same
  exact .ok (congrArg Settings.asUpdate same)

/-- A label that is entered is the label of the text. -/
theorem looks_enteredDnsName {input : String} :
    (enteredDnsName input).Looks (SameButAdmin loaded)
      (fun label => Names.dnsLabel input = some label) := by
  apply Program.Looks.bind (Program.looks_lift (fun _ done => done))
  intro label normal
  apply Program.Looks.bind looks_loadConfig
  intro config _
  apply Program.Looks.bind (Program.looks_lift (fun _ done => done))
  intro _ _
  apply Program.looks_pure
  unfold Names.normalizeDnsName at normal
  cases found : Names.dnsLabel input with
  | none =>
      rw [found] at normal
      cases normal
  | some made =>
      rw [found] at normal
      dsimp only at normal
      split at normal
      · cases normal
      · exact congrArg some (Except.ok.inj normal)

/-- A member's configuration is given the endpoint it has. -/
theorem setHostEndpoint_same (doc : Config) :
    setHostEndpoint doc.hostEndpoint.isSome doc.hostEndpoint doc.peers = .ok doc.peers := by
  unfold Config.hostEndpoint
  rcases doc.peers with _ | ⟨peer, _ | ⟨other, rest⟩⟩
  · rfl
  · cases known : peer.endpoint with
    | none => simp only [known, Option.isSome_none, setHostEndpoint]
    | some endpoint =>
        simp only [known, Option.isSome_some, setHostEndpoint]
        rw [← known]
  · rfl

/-- The fixed name of the host, where it is settled, is written back. -/
theorem looks_writtenDnsName (settled : SettledNames loaded) :
    (writtenDnsName loaded.settings.isMember loaded.interface.dnsName).Looks (SameButAdmin loaded)
      (fun name => loaded.settings.isMember = false → name = loaded.interface.dnsName) := by
  unfold writtenDnsName
  cases member : loaded.settings.isMember with
  | true => exact .ok nofun
  | false =>
      rcases settled.2 member with ⟨absent, present⟩
      cases text : entered loaded.interface.dnsName with
      | none => exact .ok (fun _ => (absent text).symm)
      | some input =>
          apply Program.Looks.bind looks_enteredDnsName
          intro label found
          exact .ok (fun _ => (present input text label found).symm)

/-- Settled values are written back as they are. -/
theorem edit_settled {update : Update} {dnsName networkDisplayName : Option String}
    {doc written : Config} (sound : Sound doc) (rest : ∃ approval invites name,
      update = { doc.settings.asUpdate with
        requireInviteApproval := approval
        memberInvites := invites
        networkDisplayName := name })
    (fixed : doc.settings.isMember = false → dnsName = doc.interface.dnsName)
    (done : update.edit doc.settings.isMember doc.interface.displayName dnsName networkDisplayName
      doc = .ok written) : Allowed memberIp policy doc written ∧ Loads written := by
  rcases rest with ⟨approval, invites, name, rfl⟩
  unfold Update.edit at done
  rcases bind_ok.mp done with ⟨peers, endpoint, done⟩
  obtain rfl := Except.ok.inj ((setHostEndpoint_same doc).symm.trans endpoint)
  rcases writeValidated_ok.mp done with ⟨writable, rfl⟩
  have port : tomlInteger doc.settings.maxRecvFileMb = doc.interface.maxRecvFileMb :=
    tomlInteger_ofNat _
  have own : (if doc.settings.isMember = true then doc.interface.dnsName else dnsName) =
      doc.interface.dnsName := by
    cases member : doc.settings.isMember with
    | true => rfl
    | false => exact fixed member
  refine ⟨⟨⟨?_, rfl, ?_⟩, fun _ => ?_⟩, writable⟩
  · intro peer listed other there same
    rw [List.inj_on_of_nodup_map sound.once there listed same]
  · simp only [Update.interface, Settings.asUpdate, port, own]
    rfl
  · refine OnlyReferencesRemoved.of_same ?_ ?_ ?_
    · rfl
    · exact fun peer listed => ⟨peer, listed, rfl⟩
    · exact fun record listed id same => ⟨record, listed, same⟩

theorem changeSettings_onBehalf {change : Update → Update} (sound : Sound loaded)
    (settled : SettledNames loaded)
    (keeps : ∀ update, ∃ approval invites name, change update = { update with
      requireInviteApproval := approval
      memberInvites := invites
      networkDisplayName := name }) :
    OnBehalf loaded memberIp policy (changeSettings change) := by
  apply OnBehalf.bind looks_networkSettings
  intro update same
  subst same
  rcases keeps loaded.settings.asUpdate with ⟨approval, invites, name, changed⟩
  rw [changed]
  apply OnBehalf.check
  intro _ _
  apply OnBehalf.check
  intro _ _
  apply OnBehalf.check
  intro _ _
  apply OnBehalf.bind looks_settings
  intro current same
  subst same
  apply OnBehalf.check
  intro _ _
  apply OnBehalf.bind (looks_writtenDnsName settled)
  intro dnsName fixed
  apply onBehalf_write
  intro doc written later done
  have settings := later.settings
  have interface := later.interface
  change Update.edit _ _ (entered loaded.interface.displayName) _ _ _ = _ at done
  rw [settled.1, settings, interface] at done
  rw [settings, interface] at fixed
  exact edit_settled (later.sound sound) ⟨approval, invites, name, rfl⟩ fixed done

/-! ### Records -/

theorem settles_loadConfig : loadConfig.Settles Loads := by
  refine .look (fun file loads => ?_)
  change ((Program.finish file.validate).bind _).Settles Loads
  rw [show file.validate = .ok () from loads]
  exact .ok

theorem listRecords_onBehalf : OnBehalf loaded memberIp policy listRecords := by
  apply OnBehalf.bind looks_loadConfig
  intro config here
  have sound := sound_of_valid here.2
  split
  · refine ⟨Program.Edits.then_settles ?_ ?_ ?_⟩
    · apply Program.edits_write
      intro doc written later done
      rcases bind_ok.mp done with ⟨⟨⟩, _, done⟩
      rcases writeValidated_ok.mp done with ⟨writable, rfl⟩
      refine ⟨allowed_records ((here.1.symm.trans later).sound sound).once ?_, writable⟩
      exact fun record listed id same => exists_fillIds 0 _ listed same
    · exact fun _ => Program.Edits.bind looks_loadConfig (fun _ _ => .finish)
    · exact fun _ => settles_loadConfig.bind (fun _ => .ok)
  · exact ⟨.finish⟩

theorem addRecord_onBehalf {record : NewRecord} {stamp : Nat} :
    OnBehalf loaded memberIp policy (addRecord record stamp) := by
  unfold addRecord
  split
  · exact ⟨.finish⟩
  · apply OnBehalf.check
    intro _ _
    apply OnBehalf.check
    intro _ _
    apply OnBehalf.bind looks_loadConfig
    intro config here
    apply OnBehalf.check
    intro _ _
    apply OnBehalf.check
    intro _ _
    apply OnBehalf.check
    intro relative _
    apply OnBehalf.answer
    apply onBehalf_write
    intro doc written later done
    rcases bind_ok.mp done with ⟨table, _, done⟩
    rcases writeValidated_ok.mp done with ⟨writable, rfl⟩
    have docSound := (here.1.symm.trans later).sound (sound_of_valid here.2)
    refine ⟨allowed_records docSound.once ?_, writable⟩
    exact fun record listed id same => ⟨record, List.mem_append_left _ listed, same⟩

theorem looks_findById {id : String} :
    (findById id).Looks (SameButAdmin loaded)
      (fun record => record ∈ loaded.dnsRecords ∧ record.id = some id) := by
  apply Program.Looks.bind looks_loadConfig
  intro config here
  split
  · rename_i record found
    rw [here.1.dnsRecords]
    have own := List.find?_some found
    exact .ok ⟨List.mem_of_find?_eq_some found, by simpa using own⟩
  · exact .error

/-- A record is found by its name and its parent. -/
theorem find_named {records : List DnsRecordConfig} {record : DnsRecordConfig}
    (names : (records.map (fun record => (record.name, record.under))).Nodup)
    (listed : record ∈ records) :
    records.find? (DnsRecordConfig.isNamed record.name record.under) = some record := by
  have own : record.isNamed record.name record.under = true := by simp [DnsRecordConfig.isNamed]
  cases found : records.find? (DnsRecordConfig.isNamed record.name record.under) with
  | none => exact absurd own (List.find?_eq_none.mp found record listed)
  | some other =>
      have named : other.isNamed record.name record.under = true := List.find?_some found
      congr 1
      apply List.inj_on_of_nodup_map names (List.mem_of_find?_eq_some found) listed
      simpa [DnsRecordConfig.isNamed] using named

theorem removeRecordById_onBehalf {id : String} :
    OnBehalf loaded memberIp policy (removeRecordById id) := by
  apply OnBehalf.bind looks_findById
  intro record known
  apply OnBehalf.bind looks_loadConfig
  intro config here
  have sound := sound_of_valid here.2
  have listed : record ∈ config.dnsRecords := here.1.dnsRecords ▸ known.1
  rw [find_named sound.names listed, Option.bind_some, known.2]
  apply onBehalf_write
  intro doc written later done
  have docSound := (here.1.symm.trans later).sound sound
  exact allowed_removeRecord docSound.once docSound.ids docSound.names
    (later.dnsRecords ▸ known.1) known.2 done

theorem setHealthById_onBehalf {id : String} {settings : HealthSettings} (sound : Sound loaded) :
    OnBehalf loaded memberIp policy (setHealthById id settings) := by
  apply OnBehalf.bind looks_findById
  intro record _
  apply onBehalf_write
  intro doc written later done
  unfold setHealthEdit at done
  rcases bind_ok.mp done with ⟨⟨⟩, _, done⟩
  rcases bind_ok.mp done with ⟨⟨⟩, _, done⟩
  rcases writeValidated_ok.mp done with ⟨writable, rfl⟩
  refine ⟨allowed_records (later.sound sound).once ?_, writable⟩
  have keeps (other : DnsRecordConfig) : (other.withHealth settings).id = other.id := rfl
  exact fun other listed id same => exists_changeRecord keeps listed same

/-! ### Requests -/

theorem guardTarget_ok {config : Config} {done : Unit}
    (passed : guardTarget config memberIp ip = .ok done) : ip ≠ memberIp := by
  unfold guardTarget at passed
  rcases bind_ok.mp passed with ⟨⟨⟩, other, _⟩
  exact refuseIf_ok.mp other

theorem adminDns_onBehalf {moment : Moment} (sound : Sound loaded) (asked : AdminDnsRequest) :
    OnBehalf loaded memberIp policy (adminDns moment asked) := by
  cases asked with
  | add name ip member cname under scheme port =>
      apply OnBehalf.check
      intro target _
      apply OnBehalf.answer
      exact addRecord_onBehalf
  | remove id =>
      apply OnBehalf.answer
      exact removeRecordById_onBehalf
  | setHealth id settings =>
      apply OnBehalf.answer
      exact setHealthById_onBehalf sound

/-- What is guarded does not concern the sender. -/
theorem OnBehalf.guarded {program : HostProgram α}
    (then_ : ip ≠ memberIp → OnBehalf loaded memberIp policy program) :
    OnBehalf loaded memberIp policy (do
      guardTarget loaded memberIp ip
      program) := by
  apply OnBehalf.check
  intro _ passed
  exact then_ (guardTarget_ok passed)

theorem adminOp_onBehalf {host : HostRequests} {moment : Moment} (sound : Sound loaded)
    (asked : AdminRequest) (careful : asked.Careful loaded) :
    OnBehalf loaded memberIp asked.editsPolicy (adminOp host moment loaded memberIp asked) := by
  cases asked with
  | removeMember ip =>
      apply OnBehalf.guarded
      intro other
      apply OnBehalf.answer
      refine removePeer_onBehalf other (fun target found => ?_)
      have known : target ∈ (findPeer loaded (.ip ip)).toOption := by rw [found]; rfl
      exact careful target known
  | renameMember ip name =>
      apply OnBehalf.guarded
      intro other
      apply OnBehalf.answer
      exact renamePeer_onBehalf other
  | approveMember ip =>
      apply OnBehalf.guarded
      intro other
      apply OnBehalf.answer
      exact approveInvite_onBehalf other
  | setCanInvite ip allowed =>
      apply OnBehalf.guarded
      intro other
      apply OnBehalf.answer
      exact editTarget_onBehalf other (fun _ => ⟨rfl, rfl, rfl⟩)
  | setMemberDnsName ip dnsName =>
      apply OnBehalf.guarded
      intro other
      apply OnBehalf.answer
      exact setPeerDnsName_onBehalf other
  | readNetworkSettings => exact OnBehalf.bind looks_settings (fun _ _ => ⟨.finish⟩)
  | setRequireApproval enabled =>
      apply OnBehalf.answer
      exact changeSettings_onBehalf sound careful (fun update => ⟨_, _, _, rfl⟩)
  | setMemberInvites enabled =>
      apply OnBehalf.answer
      exact changeSettings_onBehalf sound careful (fun update => ⟨_, _, _, rfl⟩)
  | setNetworkDisplayName name =>
      apply OnBehalf.answer
      exact changeSettings_onBehalf sound careful (fun update => ⟨_, _, _, rfl⟩)
  | aclRead =>
      apply OnBehalf.answer
      apply OnBehalf.bind Program.looks_read
      exact fun _ _ => ⟨.finish⟩
  | aclWrite written =>
      apply OnBehalf.answer
      exact writePolicy_onBehalf sound
  | setSubnets ip subnets =>
      apply OnBehalf.guarded
      intro other
      apply OnBehalf.check
      intro parsed _
      apply OnBehalf.answer
      exact editTarget_onBehalf other (fun _ => ⟨rfl, rfl, rfl⟩)
  | dnsCheckNow =>
      apply OnBehalf.check
      exact fun _ _ => ⟨.finish⟩
  | dnsListFull =>
      apply OnBehalf.answer
      exact listRecords_onBehalf
  | permGroupCreate name members =>
      apply OnBehalf.check
      intro keys _
      apply OnBehalf.answer
      exact permGroupCreate_onBehalf sound
  | permGroupRename id name =>
      apply OnBehalf.answer
      exact editPolicy_onBehalf sound
  | permGroupSetMembers id members =>
      apply OnBehalf.check
      intro keys _
      apply OnBehalf.answer
      exact editPolicy_onBehalf sound
  | permGroupDelete id =>
      apply OnBehalf.answer
      exact editPolicy_onBehalf sound

/-- A message that is careful on the configuration it finds. -/
theorem delegated_edits {host : HostRequests} {moment : Moment} {message : AdminMessage}
    (careful : message.Careful loaded) :
    (delegated host moment message.ip message.request loaded).Edits (SameButAdmin loaded) Loads
      (fun before after => Delegates loaded message.ip ∧
        Allowed message.ip message.request.editsPolicy before after) := by
  refine Program.Edits.bind (Program.looks_lift (fun _ done => done)) ?_
  intro _ valid
  refine Program.Edits.bind (Program.looks_lift (fun _ done => done)) ?_
  intro actor found
  refine Program.Edits.bind (Program.looks_lift (fun _ done => done)) ?_
  intro _ passed
  have admin : actor.admin = true := by simpa using refuseIf_ok.mp passed
  have sound := sound_of_valid valid
  unfold AdminMessage.Careful at careful
  rw [found] at careful
  have careful := careful admin
  have onBehalf : OnBehalf loaded message.ip message.request.editsPolicy
      (match message.request with
      | .dns op => do
          let text ← adminDns moment op
          return (text, none)
      | .op op => adminOp host moment loaded message.ip op) := by
    cases asked : message.request with
    | dns op => exact (adminDns_onBehalf sound op).answer
    | op op =>
        rw [asked] at careful
        exact adminOp_onBehalf sound op careful
  exact onBehalf.edits.imp (fun before after allowed => ⟨⟨actor, found, admin⟩, allowed⟩)

end

/-! ### Runs -/

/-- `set_peer_admin` changes admin flags and nothing else. -/
theorem setPeerAdmin_edits {selector : Selector} {allowed : Bool} :
    (HostProgram.setPeerAdmin selector allowed).Edits (fun _ => True) Loads SameButAdmin := by
  refine Program.Edits.bind looks_loadConfig ?_
  intro config _
  refine Program.Edits.bind (Program.looks_lift (fun _ done => done)) ?_
  intro target _
  refine Program.Edits.then_settles ?_ (fun _ => .finish) (fun _ => .ok)
  apply Program.edits_write
  intro doc written _ done
  rcases editPeer_ok (editLocated_ok done) with ⟨valid, rfl⟩
  exact ⟨SameButAdmin.of_grant, valid⟩

/-- A grant is about to change a flag, or it has. -/
inductive GrantUnderWay (file : Config) (program : HostProgram String) : Prop where
  | unwritten (edits : program.Edits (fun _ => True) Loads SameButAdmin)
  | written (loads : Loads file) (settles : program.Settles Loads)

/-- A request stays within its limits until it writes, and it writes once. -/
inductive InProgress (file : Config) (running : RunningRequest) : Prop where
  | unwritten (nothing : running.record.write = none)
      (same : SameButAdmin running.record.loaded file)
      (edits : running.program.Edits (SameButAdmin running.record.loaded) Loads
        (fun before after => Delegates running.record.loaded running.record.message.ip ∧
          Allowed running.record.message.ip running.record.message.request.editsPolicy
            before after))
  | written (before after : Config) (wrote : running.record.write = some (before, after))
      (delegates : Delegates running.record.loaded running.record.message.ip)
      (allowed : Allowed running.record.message.ip running.record.message.request.editsPolicy
        before after)
      (loads : Loads file) (settles : running.program.Settles Loads)

structure Tracked {κ : Type} (state : AdminSystem κ) : Prop where
  waiting : ∀ message ∈ state.waiting, message.isolated = false
  grants : ∀ program ∈ state.grants, GrantUnderWay state.file program
  running : ∀ running ∈ state.running, running.record.message.isolated = false ∧
    running.record.result = none ∧ InProgress state.file running
  answered : ∀ record ∈ state.answered, record.WithinLimits

section

variable {file after : Config}

/-- A request does not mind a grant. -/
theorem InProgress.granted {running : RunningRequest} (progress : InProgress file running)
    (same : SameButAdmin file after) (loads : Loads after) : InProgress after running := by
  cases progress with
  | unwritten nothing before edits => exact .unwritten nothing (before.trans same) edits
  | written before now wrote delegates allowed _ settles =>
      exact .written before now wrote delegates allowed loads settles

/-- A grant does not mind what others write. -/
theorem GrantUnderWay.overwritten {program : HostProgram String}
    (underWay : GrantUnderWay file program) (loads : Loads after) :
    GrantUnderWay after program := by
  cases underWay with
  | unwritten edits => exact .unwritten edits
  | written _ settles => exact .written loads settles

/-- One step of a grant. -/
theorem GrantUnderWay.step {program next : HostProgram String}
    (underWay : GrantUnderWay file program) (happens : program.step file = some (next, after)) :
    GrantUnderWay after next ∧ (after = file ∨ (SameButAdmin file after ∧ Loads after)) := by
  cases underWay with
  | unwritten edits =>
      rcases edits.step trivial happens with ⟨rfl, rest⟩ | ⟨same, loads, settles⟩
      · exact ⟨.unwritten rest, Or.inl rfl⟩
      · exact ⟨.written loads settles, Or.inr ⟨same, loads⟩⟩
  | written loads settles =>
      rcases settles.step loads happens with ⟨rfl, rest⟩
      exact ⟨.written loads rest, Or.inl rfl⟩

/-- A request goes on, and what it writes loads. -/
theorem InProgress.proceed {running next : RunningRequest} (progress : InProgress file running)
    (happens : running.proceed file = .inr (next, after)) :
    InProgress after next ∧ next.record.message = running.record.message ∧
      next.record.result = running.record.result ∧ (after = file ∨ Loads after) := by
  rcases running with ⟨record, program⟩
  cases program with
  | finish result => cases happens
  | look continue_ =>
      cases happens
      refine ⟨?_, rfl, rfl, Or.inl rfl⟩
      cases progress with
      | unwritten nothing same edits => exact .unwritten nothing same (edits.of_look same)
      | written before now wrote delegates allowed loads settles =>
          exact .written before now wrote delegates allowed loads (settles.of_look loads)
  | edit change continue_ =>
      cases progress with
      | written before now wrote delegates allowed loads settles =>
          exact absurd settles Program.not_settles_edit
      | unwritten nothing same edits =>
          simp only [RunningRequest.proceed] at happens
          cases changed : change file with
          | error message =>
              rw [changed] at happens
              cases happens
              exact ⟨.unwritten nothing same .finish, rfl, rfl, Or.inl rfl⟩
          | ok written =>
              rw [changed] at happens
              cases happens
              rcases edits.of_edit same changed with ⟨⟨delegates, allowed⟩, loads, settles⟩
              exact ⟨.written file after rfl delegates allowed loads settles, rfl, rfl,
                Or.inr loads⟩

/-- What is on record of a request stays within its limits. -/
theorem InProgress.withinLimits {running : RunningRequest} (progress : InProgress file running)
    (admitted : running.record.message.isolated = false)
    (open_ : running.record.result = none) : running.record.WithinLimits := by
  cases progress with
  | unwritten nothing _ _ =>
      constructor
      · exact fun wrote => absurd nothing wrote
      · intro before after wrote
        rw [nothing] at wrote
        cases wrote
      · exact fun _ _ _ => nothing
  | written before now wrote delegates allowed _ _ =>
      constructor
      · exact fun _ => ⟨admitted, delegates⟩
      · intro one two again
        rw [wrote] at again
        cases again
        exact allowed
      · intro result answered
        rw [open_] at answered
        cases answered

/-- The answer is a refusal only when nothing was written. -/
theorem InProgress.answer {running : RunningRequest} {record : RequestRecord}
    (progress : InProgress file running) (admitted : running.record.message.isolated = false)
    (open_ : running.record.result = none) (happens : running.proceed file = .inl record) :
    record.WithinLimits := by
  have limits := progress.withinLimits admitted open_
  rcases running with ⟨kept, program⟩
  cases program with
  | look continue_ => cases happens
  | edit change continue_ =>
      simp only [RunningRequest.proceed] at happens
      split at happens
      · cases happens
      · cases happens
  | finish result =>
      cases happens
      refine ⟨limits.admitted, limits.allowed, ?_⟩
      intro answer same refused
      cases progress with
      | unwritten nothing _ _ => exact nothing
      | written before now wrote delegates allowed loads settles =>
          cases result with
          | error message => exact absurd settles Program.not_settles_error
          | ok value =>
              cases same
              cases refused

end

section

variable {κ : Type} [DecidableEq κ] {host : HostRequests}

theorem Tracked.step {event : AdminEvent κ} {state next : AdminSystem κ} (tracked : Tracked state)
    (careful : CarefulEvent event state) (happens : adminStep host event state = some next) :
    Tracked next := by
  cases event with
  | connect connection member =>
      cases happens
      exact ⟨tracked.waiting, tracked.grants, tracked.running, tracked.answered⟩
  | disconnect connection =>
      cases happens
      exact ⟨tracked.waiting, tracked.grants, tracked.running, tracked.answered⟩
  | isolate connection isolated =>
      simp only [adminStep] at happens
      split at happens
      · cases happens
      · cases happens
        exact ⟨tracked.waiting, tracked.grants, tracked.running, tracked.answered⟩
  | receive connection seq request =>
      simp only [adminStep] at happens
      split at happens
      · cases happens
      · rename_i member _
        split at happens
        · cases happens
          exact tracked
        · rename_i admitted
          cases happens
          refine ⟨?_, tracked.grants, tracked.running, tracked.answered⟩
          intro message listed
          rcases List.mem_append.mp listed with earlier | new
          · exact tracked.waiting message earlier
          · obtain rfl := List.mem_singleton.mp new
            exact Bool.eq_false_iff.mpr admitted
  | begin index moment =>
      simp only [adminStep] at happens
      split at happens
      · rename_i message free found
        cases happens
        refine ⟨?_, tracked.grants, ?_, tracked.answered⟩
        · exact fun other listed => tracked.waiting other (List.mem_of_mem_eraseIdx listed)
        · intro running same
          cases same
          refine ⟨tracked.waiting message (List.mem_of_getElem? found), rfl, ?_⟩
          exact .unwritten rfl rfl (delegated_edits (careful message found))
      · cases happens
  | proceed =>
      simp only [adminStep] at happens
      split at happens
      · cases happens
      · rename_i running holds
        rcases tracked.running running holds with ⟨admitted, open_, progress⟩
        split at happens
        · rename_i record done
          cases happens
          refine ⟨tracked.waiting, tracked.grants, ?_, ?_⟩
          · intro running same
            cases same
          intro other listed
          rcases List.mem_cons.mp listed with rfl | earlier
          · exact progress.answer admitted open_ done
          · exact tracked.answered other earlier
        · rename_i later file goes
          cases happens
          rcases progress.proceed goes with ⟨now, sameMessage, sameResult, left⟩
          refine ⟨tracked.waiting, ?_, ?_, tracked.answered⟩
          · intro program listed
            rcases left with rfl | loads
            · exact tracked.grants program listed
            · exact (tracked.grants program listed).overwritten loads
          · intro running same
            cases same
            exact ⟨sameMessage ▸ admitted, sameResult.trans open_, now⟩
  | grant selector allowed =>
      cases happens
      refine ⟨tracked.waiting, ?_, tracked.running, tracked.answered⟩
      intro program listed
      rcases List.mem_append.mp listed with earlier | new
      · exact tracked.grants program earlier
      · obtain rfl := List.mem_singleton.mp new
        exact .unwritten setPeerAdmin_edits
  | proceedGrant index =>
      simp only [adminStep] at happens
      split at happens
      · cases happens
      · rename_i program found
        split at happens
        · cases happens
        · rename_i later file goes
          cases happens
          rcases (tracked.grants program (List.mem_of_getElem? found)).step goes with ⟨now, left⟩
          refine ⟨tracked.waiting, ?_, ?_, tracked.answered⟩
          · intro other listed
            rcases List.mem_or_eq_of_mem_set listed with earlier | rfl
            · rcases left with rfl | ⟨_, loads⟩
              · exact tracked.grants other earlier
              · exact (tracked.grants other earlier).overwritten loads
            · exact now
          · intro running holds
            rcases tracked.running running holds with ⟨admitted, open_, progress⟩
            refine ⟨admitted, open_, ?_⟩
            rcases left with rfl | ⟨same, loads⟩
            · exact progress
            · exact progress.granted same loads

/-- The file changes by grants and by the writes that are on record. -/
theorem adminStep_file {event : AdminEvent κ} {state next : AdminSystem κ}
    (happens : adminStep host event state = some next) (changed : next.file ≠ state.file) :
    (∃ index, event = .proceedGrant index) ∨
      ∃ record ∈ next.records, record.write = some (state.file, next.file) := by
  cases event with
  | proceedGrant index => exact Or.inl ⟨index, rfl⟩
  | connect connection member =>
      cases happens
      exact absurd rfl changed
  | disconnect connection =>
      cases happens
      exact absurd rfl changed
  | grant selector allowed =>
      cases happens
      exact absurd rfl changed
  | isolate connection isolated =>
      simp only [adminStep] at happens
      split at happens
      · cases happens
      · cases happens
        exact absurd rfl changed
  | receive connection seq request =>
      simp only [adminStep] at happens
      split at happens
      · cases happens
      · split at happens
        · cases happens
          exact absurd rfl changed
        · cases happens
          exact absurd rfl changed
  | begin index moment =>
      simp only [adminStep] at happens
      split at happens
      · cases happens
        exact absurd rfl changed
      · cases happens
  | proceed =>
      simp only [adminStep] at happens
      split at happens
      · cases happens
      · rename_i running holds
        split at happens
        · cases happens
          exact absurd rfl changed
        · rename_i later file goes
          cases happens
          right
          refine ⟨later.record, List.mem_append_left _ (List.mem_singleton.mpr rfl), ?_⟩
          rcases running with ⟨record, program⟩
          cases program with
          | finish result => cases goes
          | look continue_ =>
              cases goes
              exact absurd rfl changed
          | edit change continue_ =>
              simp only [RunningRequest.proceed] at goes
              split at goes
              · cases goes
                exact absurd rfl changed
              · cases goes
                rfl

end

/-! ### Two hosts -/

/-- A host with one member, an administrator. -/
def oneAdmin (displayName : Option String) : Config where
  interface := { address := .slash24 0x0a070001, displayName := displayName }
  peers := [{ publicKey := ⟨1⟩, admin := true, allowedIps := [Ipv4Net.host 0x0a070002] }]

def plainHost : HostRequests where
  hostPublicKey := ⟨9⟩
  parseNet := fun _ => none

/-- The administrator forbids invitations by members, and the request is carried out. -/
def forbidInvites : List (AdminEvent Unit) :=
  [.connect () ⟨0x0a070002, false⟩, .receive () 0 (.op (.setMemberInvites false)), .begin 0 {},
    .proceed, .proceed, .proceed, .proceed]

end PeerCove
