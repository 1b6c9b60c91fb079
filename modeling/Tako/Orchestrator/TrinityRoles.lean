import Mathlib.Data.List.Find
import Tako.Orchestrator.Sample

/-!
# Which role a decision is taken for

The candidates of a router are texts `role|provider`, which `Trinity` takes apart again at the first
bar. A role comes out of its own candidate exactly if its name has none.
-/

namespace Tako.Orchestrator

variable {W : Type}

/-! ## Roles of a builder -/

/-- The part of the builder that is about roles. -/
structure TrinityBuilder (W : Type) where
  roles : List (String × LlmProvider W) := []
  roleOrder : List String := []

namespace TrinityBuilder

/-- A role that is there already keeps its place and gets the new provider. -/
def role (b : TrinityBuilder W) (name : String) (p : LlmProvider W) : TrinityBuilder W where
  roleOrder := if b.roles.any (·.1 = name) then b.roleOrder else b.roleOrder ++ [name]
  roles := (name, p) :: b.roles.filter (·.1 ≠ name)

def ofRoles (defs : List (String × LlmProvider W)) : TrinityBuilder W :=
  defs.foldl (fun b d => b.role d.1 d.2) {}

/-- A `Trinity` of the builder's roles; its map has them in some order. -/
structure Builds (b : TrinityBuilder W) (T : Trinity W) : Prop where
  roles : T.roles.Perm b.roles
  order : T.roleOrder = b.roleOrder

/-- Each role is in the map once and has one place. -/
structure Consistent (b : TrinityBuilder W) : Prop where
  names : (b.roles.map Prod.fst).Nodup
  order : b.roleOrder.Nodup
  mem : ∀ name, name ∈ b.roleOrder ↔ name ∈ b.roles.map Prod.fst

theorem any_iff {b : TrinityBuilder W} {name : String} :
    b.roles.any (·.1 = name) = true ↔ name ∈ b.roles.map Prod.fst := by
  rw [List.any_eq_true, List.mem_map]
  simp only [decide_eq_true_eq]

theorem Consistent.role {b : TrinityBuilder W} (h : b.Consistent) (name : String)
    (p : LlmProvider W) : (b.role name p).Consistent where
  names := by
    have hsub : (b.roles.filter (·.1 ≠ name)).Sublist b.roles := List.filter_sublist
    refine List.nodup_cons.2 ⟨fun hmem => ?_, (hsub.map Prod.fst).nodup h.names⟩
    obtain ⟨d, hd, hname⟩ := List.mem_map.1 hmem
    exact absurd hname (of_decide_eq_true (List.mem_filter.1 hd).2)
  order := by
    unfold TrinityBuilder.role
    split
    · exact h.order
    next hany =>
      have hnew : name ∉ b.roleOrder := fun hmem => hany (any_iff.2 ((h.mem name).1 hmem))
      exact List.nodup_append.2 ⟨h.order, List.nodup_singleton name, fun a ha a' ha' heq =>
        hnew (List.mem_singleton.1 ha' ▸ heq ▸ ha)⟩
  mem := by
    intro n
    have hmap : n ∈ (b.role name p).roles.map Prod.fst ↔
        n = name ∨ n ∈ b.roles.map Prod.fst := by
      simp only [TrinityBuilder.role, List.map_cons, List.mem_cons, List.mem_map, List.mem_filter,
        decide_eq_true_eq]
      constructor
      · rintro (rfl | ⟨d, ⟨hd, -⟩, rfl⟩)
        · exact .inl rfl
        · exact .inr ⟨d, hd, rfl⟩
      · rintro (rfl | ⟨d, hd, rfl⟩)
        · exact .inl rfl
        · by_cases heq : d.1 = name
          · exact .inl heq
          · exact .inr ⟨d, ⟨hd, heq⟩, rfl⟩
    rw [hmap]
    unfold TrinityBuilder.role
    split
    next hany =>
      have hthere := any_iff.1 hany
      rw [h.mem]
      exact ⟨.inr, fun hn => hn.elim (fun heq => heq ▸ hthere) id⟩
    next => rw [List.mem_append, List.mem_singleton, h.mem, or_comm]

theorem ofRoles_consistent (defs : List (String × LlmProvider W)) : (ofRoles defs).Consistent := by
  have hfold : ∀ b : TrinityBuilder W, b.Consistent →
      (defs.foldl (fun b d => b.role d.1 d.2) b).Consistent := by
    induction defs with
    | nil => exact fun _ h => h
    | cons d defs ih => exact fun b h => ih _ (h.role d.1 d.2)
  exact hfold {} ⟨.nil, .nil, fun _ => Iff.rfl⟩

end TrinityBuilder

/-! ## Candidates -/

namespace Trinity

variable {T : Trinity W} {b : TrinityBuilder W} {role : String}

/-- The text that is offered for a role. -/
def candidate (T : Trinity W) (role : String) : String :=
  role ++ "|" ++ ((T.roles.find? (·.1 = role)).map (·.2.id)).getD ""

theorem candidateIds_eq : T.candidateIds = T.roleOrder.map T.candidate := rfl

/-- A score that is reported is for branch `i`. -/
def ReportedFor (i : Nat) : Act W → Prop
  | .yielded (.verifierScore _ branch _) => branch = i
  | _ => True

/-- A turn for the role at place `i`: this role is picked with its provider, and the scores that the
turn reports, of its deltas and of its whole text, are for this place. -/
structure Follows (T : Trinity W) (principal : Principal) (i : Nat) (role : String)
    (picked : String × LlmProvider W) : Prop where
  role : picked.1 = role
  provider : picked ∈ T.roles
  branch : T.branch picked.1 = i
  deltas : ∀ prompt step k delta text,
    ((T.hooks principal prompt).onText picked.1 step k delta text).Acts (ReportedFor i)
  turn : ∀ prompt step assistant,
    ((T.hooks principal prompt).onTurn picked.1 step assistant).Acts (ReportedFor i)

/-! ## Decisions -/

section

variable {defs : List (String × LlmProvider W)}

theorem names_nodup (hT : (TrinityBuilder.ofRoles defs).Builds T) :
    (T.roles.map Prod.fst).Nodup :=
  (hT.roles.map Prod.fst).nodup_iff.2 (TrinityBuilder.ofRoles_consistent defs).names

theorem provider_unique (hT : (TrinityBuilder.ofRoles defs).Builds T) {p p' : LlmProvider W}
    (h : (role, p) ∈ T.roles) (h' : (role, p') ∈ T.roles) : p = p' := by
  have hinj := List.inj_on_of_nodup_map (names_nodup hT) h h' rfl
  exact congrArg Prod.snd hinj

/-- A role that is in the order is found in the map. -/
theorem find?_role (hT : (TrinityBuilder.ofRoles defs).Builds T) (hrole : role ∈ T.roleOrder) :
    ∃ p, (role, p) ∈ T.roles ∧ T.roles.find? (·.1 = role) = some (role, p) := by
  rw [hT.order] at hrole
  have hmem := ((TrinityBuilder.ofRoles_consistent defs).mem role).1 hrole
  obtain ⟨d, hd, hname⟩ := List.mem_map.1 ((hT.roles.map Prod.fst).mem_iff.2 hmem)
  cases hfind : T.roles.find? (·.1 = role) with
  | none =>
    have hnot := List.find?_eq_none.1 hfind d hd
    exact absurd hname (by simpa using hnot)
  | some d' =>
    obtain rfl : d'.1 = role := by simpa using List.find?_some hfind
    exact ⟨d'.2, List.mem_of_find?_eq_some hfind, rfl⟩

theorem branch_eq (hT : (TrinityBuilder.ofRoles defs).Builds T) {i : Nat}
    (hi : T.roleOrder[i]? = some role) : T.branch role = i := by
  have hnodup : T.roleOrder.Nodup := hT.order ▸ (TrinityBuilder.ofRoles_consistent defs).order
  obtain ⟨hlt, hget⟩ := List.getElem?_eq_some_iff.1 hi
  have hidx : T.roleOrder.findIdx? (· = role) = some i := by
    refine List.findIdx?_eq_some_iff_getElem.2 ⟨hlt, by simpa using hget, fun j hj => ?_⟩
    have hne : T.roleOrder[j] ≠ T.roleOrder[i] := fun heq =>
      absurd ((hnodup.getElem_inj_iff).1 heq) (Nat.ne_of_lt hj)
    simpa [hget] using hne
  unfold branch
  rw [hidx]
  rfl

/-- Without a bar in its name, a role is found under its candidate. -/
theorem pickProvider_plain (hT : (TrinityBuilder.ofRoles defs).Builds T)
    (hrole : role ∈ T.roleOrder) (hbar : '|' ∉ role.toList) :
    ∃ p, (role, p) ∈ T.roles ∧ T.pickProvider (T.candidate role) = some (role, p) := by
  obtain ⟨p, hp, hfind⟩ := find?_role hT hrole
  refine ⟨p, hp, ?_⟩
  have hbefore : Str.beforeFirst (T.candidate role) '|' = role := by
    rw [candidate]
    exact (Str.beforeFirst_append '|' _).trans (Str.beforeFirst_eq_self_iff.2 hbar)
  have hmem : '|' ∈ (T.candidate role).toList := by simp [candidate, String.toList_append]
  simp only [pickProvider, pickProviderStatic, hbefore, if_pos hmem, hfind, Option.some_or]

/-- With one, another role is found or none. -/
theorem pickProvider_barred (hT : (TrinityBuilder.ofRoles defs).Builds T)
    (hrole : role ∈ T.roleOrder) (hbar : '|' ∈ role.toList) {x : String × LlmProvider W}
    (h : T.pickProvider (T.candidate role) = some x) : x.1 ≠ role := by
  obtain ⟨p, hp, hfind⟩ := find?_role hT hrole
  have hcandidate : T.candidate role = role ++ "|" ++ p.id := by rw [candidate, hfind]; rfl
  have hbefore : Str.beforeFirst (T.candidate role) '|' = Str.beforeFirst role '|' := by
    rw [hcandidate]
    exact Str.beforeFirst_append '|' p.id
  have hlength : (T.candidate role).toList.length =
      role.toList.length + (p.id.toList.length + 1) := by
    simp [hcandidate, String.toList_append]
  simp only [pickProvider, pickProviderStatic, Option.or_eq_some_iff] at h
  rcases h with (hnamed | ⟨-, hwhole⟩) | ⟨-, hid⟩
  · split at hnamed
    next =>
      rw [hbefore] at hnamed
      have hname : x.1 = Str.beforeFirst role '|' := by simpa using List.find?_some hnamed
      rw [hname]
      exact fun heq => Str.beforeFirst_eq_self_iff.1 heq hbar
    next => cases hnamed
  · have hname : x.1 = T.candidate role := by simpa using List.find?_some hwhole
    intro heq
    rw [← hname, heq] at hlength
    omega
  · intro heq
    have hname : x.2.id = T.candidate role := by simpa using List.find?_some hid
    have hx : (role, x.2) ∈ T.roles := heq ▸ List.mem_of_find?_eq_some hid
    rw [← hname, provider_unique hT hx hp] at hlength
    omega

/-! ## What a turn reports -/

open Traced

theorem scoreDelta_reported (T : Trinity W) (principal : Principal) (role : String) (step : Nat)
    (text : String) :
    (T.scoreDelta principal role step text).Acts (ReportedFor (T.branch role)) := by
  unfold scoreDelta
  split
  · exact .pure _
  · refine .bind (.call fun _ => trivial) fun score => ?_
    split
    · exact .emit rfl
    · exact .pure _

theorem scoreTurn_reported (T : Trinity W) (principal : Principal) (prompt role : String)
    (step : Nat) (assistant : Message) :
    (T.scoreTurn principal prompt role step assistant).Acts (ReportedFor (T.branch role)) := by
  unfold scoreTurn
  split
  · exact .pure _
  · exact .bind (.call fun _ => trivial) fun _ => .emit rfl

/-- A role that is picked for its own place is followed. -/
theorem follows_of_branch {principal : Principal} {i : Nat} {picked : String × LlmProvider W}
    (hrole : picked.1 = role) (hmem : picked ∈ T.roles) (hbranch : T.branch picked.1 = i) :
    T.Follows principal i role picked where
  role := hrole
  provider := hmem
  branch := hbranch
  deltas prompt step k delta text := by
    refine .bind (.emit trivial) fun _ => ?_
    exact hbranch ▸ scoreDelta_reported T principal picked.1 step text
  turn prompt step assistant :=
    hbranch ▸ scoreTurn_reported T principal prompt picked.1 step assistant

theorem pick_result {principal : Principal} {messages : List Message} {w : W} {d : RoutingDecision}
    (hroute : (T.router.route principal (.new "router" messages) T.candidateIds w).1 = .ok d) :
    (((T.loop principal).pick messages).run w).result =
      (T.pickProvider d.providerId).elim
        (.error (.invalid s!"Trinity: router chose unknown provider id `{d.providerId}`")) .ok := by
  have hdecision : ((route T.router principal (.new "router" messages) T.candidateIds).run w).result
      = .ok d := hroute
  rw [loop, run_bind_ok _ hdecision]
  cases T.pickProvider d.providerId <;> rfl

/-- A decision for an offered candidate is followed exactly if the candidate's role has no bar in
its name. -/
theorem pick_follows_iff (hT : (TrinityBuilder.ofRoles defs).Builds T) {i : Nat}
    (hi : T.roleOrder[i]? = some role) {principal : Principal} {messages : List Message} {w : W}
    {d : RoutingDecision}
    (hroute : (T.router.route principal (.new "router" messages) T.candidateIds w).1 = .ok d)
    (hd : T.candidateIds[i]? = some d.providerId) :
    (∃ picked, (((T.loop principal).pick messages).run w).result = .ok picked ∧
      T.Follows principal i role picked) ↔ '|' ∉ role.toList := by
  have hrole : role ∈ T.roleOrder := List.mem_of_getElem? hi
  have hcandidate : d.providerId = T.candidate role := by
    rw [candidateIds_eq, List.getElem?_map, hi] at hd
    exact (Option.some.inj hd).symm
  rw [pick_result hroute, hcandidate]
  constructor
  · rintro ⟨picked, hpicked, hfollows⟩ hbar
    cases hpick : T.pickProvider (T.candidate role) with
    | none =>
      rw [hpick] at hpicked
      cases hpicked
    | some x =>
      rw [hpick] at hpicked
      obtain rfl : x = picked := Except.ok.inj hpicked
      exact pickProvider_barred hT hrole hbar hpick hfollows.role
  · intro hbar
    obtain ⟨p, hp, hpick⟩ := pickProvider_plain hT hrole hbar
    refine ⟨(role, p), by rw [hpick]; rfl, ?_⟩
    exact follows_of_branch rfl hp (branch_eq hT hi)

end

/-- Every decision for an offered candidate is followed. -/
def FollowsRouter (T : Trinity W) : Prop :=
  ∀ (principal : Principal) (messages : List Message) (w : W) (d : RoutingDecision) (i : Nat)
    (role : String), T.roleOrder[i]? = some role → T.candidateIds[i]? = some d.providerId →
    (T.router.route principal (.new "router" messages) T.candidateIds w).1 = .ok d →
    ∃ picked, (((T.loop principal).pick messages).run w).result = .ok picked ∧
      T.Follows principal i role picked

/-! ## Two roles -/

/-- A role with a bar after the role whose name comes before the bar. -/
def barred : List (String × LlmProvider Nat) :=
  [("a", Sample.scripted fun _ => none), ("a|b", Sample.scripted fun _ => none)]

/-- The builder's roles under a router that always gives the same answer. -/
def choosing (defs : List (String × LlmProvider Nat)) (candidate : String) : Trinity Nat where
  codec := Sample.codec
  roles := (TrinityBuilder.ofRoles defs).roles
  roleOrder := (TrinityBuilder.ofRoles defs).roleOrder
  router := { route := fun _ _ _ n => (.ok { providerId := candidate, confidence := 1 }, n) }
  tools := Sample.tools

theorem choosing_builds (defs : List (String × LlmProvider Nat)) (candidate : String) :
    (TrinityBuilder.ofRoles defs).Builds (choosing defs candidate) := ⟨.rfl, rfl⟩

theorem pick_follows_plain :
    ∃ picked, ((((choosing barred "a|sample:model").loop Sample.acme).pick []).run 0).result =
        .ok picked ∧ (choosing barred "a|sample:model").Follows Sample.acme 0 "a" picked :=
  (pick_follows_iff (choosing_builds barred "a|sample:model") rfl rfl (by decide)).2 (by decide)

/-- The candidate of the second role runs the first. -/
theorem barred_role_not_followed :
    ¬ ∀ (defs : List (String × LlmProvider Nat)) (T : Trinity Nat),
      (TrinityBuilder.ofRoles defs).Builds T → T.FollowsRouter := by
  intro hall
  obtain ⟨picked, hpicked, hfollows⟩ := hall barred _ (choosing_builds barred "a|b|sample:model")
    Sample.acme [] 0 _ 1 "a|b" rfl (by decide) rfl
  have hname : ((((choosing barred "a|b|sample:model").loop Sample.acme).pick []).run 0).result.map
      Prod.fst = .ok "a" := rfl
  rw [hpicked] at hname
  exact absurd ((Except.ok.inj hname).symm.trans hfollows.role) (by decide)

end Trinity

end Tako.Orchestrator
