/-
Module: PeerCove.Proofs.SerialEdits
Layer: Proofs
Purpose: Two operations on `host.toml` in two processes leave what they leave one after the other,
  in every run in which each takes the lock with the plan the file then calls for; and no operation
  on an existing member gives two members one name or one fixed DNS name.
Trusted boundary: none
Main exports: Serialized, Apart, alone_apart, hostEdits_serializable
-/
import PeerCove.Ops.HostFile

namespace PeerCove

open Fallible LockedFile

/-- The two processes, such as the daemon and the screens. -/
inductive Process where
  | first
  | second
deriving Repr, DecidableEq

/-- Which operation each of them runs. -/
def Process.op (one two : HostOp) : Process → HostOp
  | .first => one
  | .second => two

/-- The first operation and then the second give these answers and leave this file. -/
def OneThenOther (escaped : Char → Bool) (one two : HostOp) (before : Config)
    (resultOne resultTwo : Except String HostResult) (after : Config) : Prop :=
  let first := (hostProtocol escaped).alone one before
  let second := (hostProtocol escaped).alone two first.2
  first.1 = resultOne ∧ second = (resultTwo, after)

/-- The operations one after the other, in either order. -/
def Serialized (escaped : Char → Bool) (one two : HostOp) (before : Config)
    (resultOne resultTwo : Except String HostResult) (after : Config) : Prop :=
  OneThenOther escaped one two before resultOne resultTwo after ∨
    OneThenOther escaped two one before resultTwo resultOne after

/-! ### Names stay apart -/

/-- No two members share a text in a field. -/
def Apart (field : PeerConfig → Option String) (config : Config) : Prop :=
  ∀ one ∈ config.peers, ∀ two ∈ config.peers, ∀ text,
    field one = some text → field two = some text → one.publicKey = two.publicKey

/-- `append_peer` takes names as its caller gives them. -/
def HostOp.appends : HostOp → Bool
  | .appendPeer _ => true
  | _ => false

section Apart

variable {field : PeerConfig → Option String} {config after : Config}

theorem Apart.of_peers (apart : Apart field config)
    (fewer : ∀ peer ∈ after.peers, peer ∈ config.peers) : Apart field after := by
  intro one listed two listed' text named named'
  exact apart one (fewer one listed) two (fewer two listed') text named named'

/-- An edit of one member keeps the members apart, when no other member has the text it gives. -/
theorem Apart.editPeer {key : PublicKey} {edit : PeerConfig → PeerConfig}
    (apart : Apart field config) (done : editPeer key edit config = .ok after)
    (same : ∀ peer, (edit peer).publicKey = peer.publicKey)
    (free : ∀ peer ∈ config.peers, peer.publicKey = key → ∀ text, field (edit peer) = some text →
      ∀ other ∈ config.peers, other.publicKey ≠ key → field other ≠ some text) :
    Apart field after := by
  unfold PeerCove.editPeer at done
  rcases bind_ok.mp done with ⟨⟨⟩, _, done⟩
  rcases bind_ok.mp done with ⟨⟨⟩, _, done⟩
  rcases writeValidated_ok.mp done with ⟨_, rfl⟩
  intro one listed two listed' text named named'
  rcases List.mem_map.mp listed with ⟨source, member, rfl⟩
  rcases List.mem_map.mp listed' with ⟨source', member', rfl⟩
  by_cases edited : source.publicKey = key
  · rw [if_pos edited] at named ⊢
    by_cases edited' : source'.publicKey = key
    · rw [if_pos edited', same, same, edited, edited']
    · rw [if_neg edited'] at named'
      exact absurd named' (free source member edited text named source' member' edited')
  · rw [if_neg edited] at named ⊢
    by_cases edited' : source'.publicKey = key
    · rw [if_pos edited'] at named'
      exact absurd named (free source' member' edited' text named' source member edited)
    · rw [if_neg edited'] at named' ⊢
      exact apart source member source' member' text named named'

theorem planned_inr {α : Type} {found : Except String α}
    {next : α → Except String HostResult ⊕ HostPlan} {plan : HostPlan}
    (prepares : planned found next = .inr plan) :
    ∃ value, found = .ok value ∧ next value = .inr plan := by
  cases found with
  | error message => cases prepares
  | ok value => exact ⟨value, rfl, prepares⟩

theorem written_some {edited : Except String Config} {answer : HostResult}
    {result : Except String HostResult} (done : written edited answer = (result, some after)) :
    edited = .ok after := by
  cases edited with
  | error message => cases done
  | ok config =>
      obtain rfl : config = after := Option.some.inj (congrArg Prod.snd done)
      rfl

/-- Saving a policy leaves the members as they are. -/
theorem Apart.writePolicy {policy : PolicySettings} (apart : Apart field config)
    (done : writePolicy config policy = .ok after) : Apart field after := by
  rcases writeValidated_ok.mp done with ⟨_, rfl⟩
  exact apart

theorem Apart.removal {plan : RemovalPlan} (apart : Apart field config)
    (done : plan.edit config = .ok after) : Apart field after := by
  unfold RemovalPlan.edit at done
  rcases bind_ok.mp done with ⟨⟨⟩, _, done⟩
  rcases bind_ok.mp done with ⟨⟨⟩, _, done⟩
  rcases writeValidated_ok.mp done with ⟨_, rfl⟩
  exact apart.of_peers (fun peer listed => (List.mem_filter.mp listed).1)

/-- A rotation keeps every name, and members of one key have one key afterwards. -/
theorem Apart.rotation {old new : PublicKey}
    (isName : field = PeerConfig.name ∨ field = PeerConfig.dnsName)
    (apart : Apart field config) (done : rotationEdit old new config = .ok after) :
    Apart field after := by
  unfold rotationEdit at done
  rcases bind_ok.mp done with ⟨⟨⟩, _, done⟩
  rcases bind_ok.mp done with ⟨⟨⟩, _, done⟩
  rcases writeValidated_ok.mp done with ⟨_, rfl⟩
  have kept (peer : PeerConfig) : field (peer.replaceKey old new) = field peer := by
    rcases isName with rfl | rfl
    · rfl
    · rfl
  intro one listed two listed' text named named'
  rcases List.mem_map.mp listed with ⟨source, member, rfl⟩
  rcases List.mem_map.mp listed' with ⟨source', member', rfl⟩
  rw [kept] at named named'
  have same := apart source member source' member' text named named'
  simp only [PeerConfig.replaceKey, same]

/-- The name was free when the plan was made of the same file. -/
theorem Apart.rename {selector : Selector} {newName : String} {key : PublicKey}
    (isName : field = PeerConfig.name ∨ field = PeerConfig.dnsName) (apart : Apart field config)
    (plans : renamePlan config selector newName = .ok key)
    (done : PeerCove.editPeer key (fun peer => { peer with name := some newName }) config =
      .ok after) : Apart field after := by
  unfold renamePlan at plans
  rcases bind_ok.mp plans with ⟨⟨⟩, _, plans⟩
  rcases bind_ok.mp plans with ⟨⟨⟩, _, plans⟩
  rcases bind_ok.mp plans with ⟨target, _, plans⟩
  rcases bind_ok.mp plans with ⟨⟨⟩, free, plans⟩
  obtain rfl := pure_ok.mp plans
  apply apart.editPeer done (fun _ => rfl)
  intro peer listed isTarget text named other member differs same
  rcases isName with rfl | rfl
  · obtain rfl := Option.some.inj named
    apply refuseIf_ok.mp free
    exact List.any_eq_true.mpr ⟨other, member, by simp [same, differs]⟩
  · exact differs ((apart other member peer listed text same named).trans isTarget)

/-- The label was free when the plan was made of the same file. -/
theorem Apart.dnsName {selector : Selector} {input display label : String} {key : PublicKey}
    (isName : field = PeerConfig.name ∨ field = PeerConfig.dnsName) (apart : Apart field config)
    (plans : dnsNamePlan config selector input = .ok (.apply key display label))
    (done : PeerCove.editPeer key (fun peer => { peer with dnsName := some label }) config =
      .ok after) : Apart field after := by
  have free : label ∉ takenDnsLabels config (.peer key) := by
    unfold dnsNamePlan at plans
    split at plans
    · cases plans
    rcases bind_ok.mp plans with ⟨⟨⟩, _, plans⟩
    rcases bind_ok.mp plans with ⟨target, _, plans⟩
    split at plans
    · cases plans
    · rcases bind_ok.mp plans with ⟨⟨⟩, free, plans⟩
      cases pure_ok.mp plans
      exact refuseIf_ok.mp free
  apply apart.editPeer done (fun _ => rfl)
  intro peer listed isTarget text named other member differs same
  rcases isName with rfl | rfl
  · exact differs ((apart other member peer listed text same named).trans isTarget)
  · obtain rfl := Option.some.inj named
    apply free
    refine List.mem_append_left _ (List.mem_append_right _ (List.mem_map.mpr ⟨other, ?_, ?_⟩))
    · refine List.mem_filter.mpr ⟨member, ?_⟩
      simpa using Ne.symm differs
    · rw [peerDnsLabel, same]
      rfl

/-- A plan of an operation on existing members, carried out on the file it was made of. -/
theorem plan_apart {escaped : Char → Bool} {op : HostOp} {plan : HostPlan}
    {result : Except String HostResult}
    (isName : field = PeerConfig.name ∨ field = PeerConfig.dnsName)
    (existing : op.appends = false) (prepares : op.prepare config = .inr plan)
    (edits : plan.edit escaped config = (result, some after)) (apart : Apart field config) :
    Apart field after := by
  cases op with
  | appendPeer peer => cases existing
  | removePeer selector =>
      rcases planned_inr prepares with ⟨removal, _, same⟩
      cases same
      exact apart.removal (written_some edits)
  | renamePeer selector newName =>
      rcases planned_inr prepares with ⟨key, plans, same⟩
      cases same
      exact apart.rename isName plans (written_some edits)
  | rotatePeerKey memberIp newKey hostPublicKey =>
      rcases planned_inr prepares with ⟨rotation, _, same⟩
      cases rotation with
      | unchanged => cases same
      | apply old display =>
          cases same
          exact apart.rotation isName (written_some edits)
  | setPeerDnsName selector input =>
      rcases planned_inr prepares with ⟨naming, plans, same⟩
      cases naming with
      | unchanged label => cases same
      | apply key display label =>
          cases same
          exact apart.dnsName isName plans (written_some edits)
  | writePolicy policy =>
      cases prepares
      exact apart.writePolicy (written_some edits)
  | permGroupCreate name members random =>
      rcases planned_inr prepares with ⟨created, _, same⟩
      cases same
      exact apart.writePolicy (written_some edits)
  | permGroupRename id name =>
      rcases planned_inr prepares with ⟨policy, _, same⟩
      cases same
      exact apart.writePolicy (written_some edits)
  | permGroupSetMembers id members =>
      rcases planned_inr prepares with ⟨policy, _, same⟩
      cases same
      exact apart.writePolicy (written_some edits)
  | permGroupDelete id =>
      rcases planned_inr prepares with ⟨policy, _, same⟩
      cases same
      exact apart.writePolicy (written_some edits)
  | importPermGroups groups =>
      rcases planned_inr prepares with ⟨policy, _, same⟩
      cases policy with
      | none => cases same
      | some policy =>
          cases same
          exact apart.writePolicy (written_some edits)

/-- An operation on existing members keeps their names and their fixed DNS names apart. -/
theorem alone_apart {escaped : Char → Bool} {op : HostOp}
    (isName : field = PeerConfig.name ∨ field = PeerConfig.dnsName)
    (existing : op.appends = false) (apart : Apart field config) :
    Apart field ((hostProtocol escaped).alone op config).2 := by
  unfold Protocol.alone
  cases prepares : (hostProtocol escaped).prepare op config with
  | inl result => exact apart
  | inr plan =>
      change Apart field ((plan.edit escaped config).2.getD config)
      cases edits : plan.edit escaped config with
      | mk result write =>
          cases write with
          | none => exact apart
          | some after => exact plan_apart isName existing prepares edits apart

end Apart

/-! ### Two operations -/

/-- Operations on existing members, one after the other, keep their names apart. -/
theorem Serialized.apart {escaped : Char → Bool} {one two : HostOp} {before after : Config}
    {resultOne resultTwo : Except String HostResult}
    (serialized : Serialized escaped one two before resultOne resultTwo after)
    (existing : one.appends = false) (existing' : two.appends = false)
    {field : PeerConfig → Option String}
    (isName : field = PeerConfig.name ∨ field = PeerConfig.dnsName) (apart : Apart field before) :
    Apart field after := by
  rcases serialized with ⟨_, done⟩ | ⟨_, done⟩
  · obtain rfl : _ = after := congrArg Prod.snd done
    exact alone_apart isName existing' (alone_apart isName existing apart)
  · obtain rfl : _ = after := congrArg Prod.snd done
    exact alone_apart isName existing (alone_apart isName existing' apart)

/-- Two processes come in one of two orders. -/
theorem process_order {order : List Process} (once : order.Nodup)
    (all : ∀ process, process ∈ order) :
    order = [.first, .second] ∨ order = [.second, .first] := by
  have same : order.Perm [.first, .second] := by
    apply (List.perm_ext_iff_of_nodup once (by decide)).mpr
    intro process
    cases process with
    | first => simp [all]
    | second => simp [all]
  rcases List.length_eq_two.mp same.length_eq with ⟨one, two, rfl⟩
  cases one with
  | first => cases two with
    | first => exact absurd once (by decide)
    | second => exact Or.inl rfl
  | second => cases two with
    | first => exact Or.inr rfl
    | second => exact absurd once (by decide)

/-- Two processes in turn are two operations one after the other. -/
theorem oneThenOther_of_inTurn {escaped : Char → Bool} {ops : Process → HostOp}
    {a b : Process} {before after : Config} {resultOne resultTwo : Except String HostResult}
    (turns : inTurn (hostProtocol escaped) ops [a, b] before =
      ([(a, resultOne), (b, resultTwo)], after)) :
    OneThenOther escaped (ops a) (ops b) before resultOne resultTwo after := by
  change ([(a, ((hostProtocol escaped).alone (ops a) before).1),
      (b, ((hostProtocol escaped).alone (ops b)
        ((hostProtocol escaped).alone (ops a) before).2).1)],
    ((hostProtocol escaped).alone (ops b) ((hostProtocol escaped).alone (ops a) before).2).2) =
      ([(a, resultOne), (b, resultTwo)], after) at turns
  rcases Prod.mk.inj turns with ⟨results, file⟩
  rcases List.cons.inj results with ⟨one, rest⟩
  rcases List.cons.inj rest with ⟨two, _⟩
  exact ⟨(Prod.mk.inj one).2, Prod.ext (Prod.mk.inj two).2 file⟩

/-- Two operations whose plans are up to date when they take the lock leave the answers and the file
that they leave one after the other; names and fixed DNS names of existing members stay apart. -/
theorem hostEdits_serializable {escaped : Char → Bool} {one two : HostOp} {before : Config}
    {events : List (Event Process)}
    {final : State Process Config HostPlan (Except String HostResult)}
    (prepared : Runs.Along (step (hostProtocol escaped) (Process.op one two))
      (Prepared (hostProtocol escaped) (Process.op one two)) events { file := before })
    (reached : Runs.run (step (hostProtocol escaped) (Process.op one two)) events
      { file := before } = some final)
    {resultOne resultTwo : Except String HostResult}
    (first : final.stage .first = .finished resultOne)
    (second : final.stage .second = .finished resultTwo) :
    Serialized escaped one two before resultOne resultTwo final.file ∧
      (one.appends = false → two.appends = false → ∀ field,
        field = PeerConfig.name ∨ field = PeerConfig.dnsName →
          Apart field before → Apart field final.file) := by
  have finished (process : Process) : final.stage process =
      .finished (match process with
        | .first => resultOne
        | .second => resultTwo) := by
    cases process with
    | first => exact first
    | second => exact second
  have serialized : Serialized escaped one two before resultOne resultTwo final.file := by
    rcases serializable prepared reached finished with ⟨order, once, all, turns⟩
    rcases process_order once all with rfl | rfl
    · exact Or.inl (oneThenOther_of_inTurn turns)
    · exact Or.inr (oneThenOther_of_inTurn turns)
  exact ⟨serialized, fun existing existing' field isName apart =>
    serialized.apart existing existing' isName apart⟩

/-! ### Two runs -/

/-- Two members, who are both in the group `staff`. -/
def twoOfStaff : Config where
  interface := { address := .slash24 0x0a070001 }
  peers := [{ publicKey := ⟨1⟩, allowedIps := [Ipv4Net.host 0x0a070002] },
    { publicKey := ⟨2⟩, allowedIps := [Ipv4Net.host 0x0a070003] }]
  acl := { groups := [{ id := "staff", name := "Staff", members := [⟨1⟩, ⟨2⟩] }] }

/-- One process gives the group another name. -/
def renameStaff : HostOp := .permGroupRename "staff" "Everyone"

/-- The other takes the second member out of it. -/
def revokeStaff : HostOp := .permGroupSetMembers "staff" [⟨1⟩]

/-- The process goes from its read to its write at once. -/
def atOnce (process : Process) : List (Event Process) :=
  [.read process, .acquire process, .release process]

/-- One after the other, both changes last. -/
theorem hostEdits_serializable_atOnce :
    ∃ final, Runs.run (step (hostProtocol (fun _ => false)) (Process.op renameStaff revokeStaff))
        (atOnce .first ++ atOnce .second) { file := twoOfStaff } = some final ∧
      Serialized (fun _ => false) renameStaff revokeStaff twoOfStaff (.ok .done) (.ok .done)
        final.file := by
  have ends : (Runs.run (step (hostProtocol (fun _ => false)) (Process.op renameStaff revokeStaff))
      (atOnce .first ++ atOnce .second) { file := twoOfStaff }).map
        (fun final => (final.stage .first, final.stage .second)) =
          some (.finished (.ok .done), .finished (.ok .done)) := by
    decide
  rcases Option.map_eq_some_iff.mp ends with ⟨final, reached, stages⟩
  have prepared : Runs.Along
      (step (hostProtocol (fun _ => false)) (Process.op renameStaff revokeStaff))
      (Prepared (hostProtocol (fun _ => false)) (Process.op renameStaff revokeStaff))
      (atOnce .first ++ atOnce .second) { file := twoOfStaff } := by
    decide
  rcases Prod.mk.inj stages with ⟨first, second⟩
  exact ⟨final, reached, (hostEdits_serializable prepared reached first second).1⟩

/-- The rename reads the policy, the revocation goes through, and the rename writes what it read:
both succeed, and the second member is in the group again. -/
theorem revocation_lost :
    ∃ final, Runs.run (step (hostProtocol (fun _ => false)) (Process.op renameStaff revokeStaff))
        ([.read .first] ++ atOnce .second ++ [.acquire .first, .release .first])
        { file := twoOfStaff } = some final ∧
      final.stage .first = .finished (.ok .done) ∧ final.stage .second = .finished (.ok .done) ∧
      ¬ Serialized (fun _ => false) renameStaff revokeStaff twoOfStaff (.ok .done) (.ok .done)
        final.file := by
  have ends : (Runs.run (step (hostProtocol (fun _ => false)) (Process.op renameStaff revokeStaff))
      ([.read .first] ++ atOnce .second ++ [.acquire .first, .release .first])
      { file := twoOfStaff }).map
        (fun final => (final.file.acl.groups.map AclGroup.members, final.stage .first,
          final.stage .second)) =
          some ([[⟨1⟩, ⟨2⟩]], .finished (.ok .done), .finished (.ok .done)) := by
    decide
  rcases Option.map_eq_some_iff.mp ends with ⟨final, reached, parts⟩
  rcases Prod.mk.inj parts with ⟨members, stages⟩
  rcases Prod.mk.inj stages with ⟨first, second⟩
  refine ⟨final, reached, first, second, ?_⟩
  have revoked (one two : HostOp)
      (either : (one, two) = (renameStaff, revokeStaff) ∨ (one, two) = (revokeStaff, renameStaff)) :
      (((hostProtocol (fun _ => false)).alone two
        ((hostProtocol (fun _ => false)).alone one twoOfStaff).2).2.acl.groups.map
          AclGroup.members) = [[⟨1⟩]] := by
    rcases either with same | same
    · cases same
      decide
    · cases same
      decide
  intro serialized
  rcases serialized with ⟨_, done⟩ | ⟨_, done⟩
  · have left := revoked _ _ (Or.inl rfl)
    rw [done, members] at left
    exact absurd left (by decide)
  · have left := revoked _ _ (Or.inr rfl)
    rw [done, members] at left
    exact absurd left (by decide)

end PeerCove
