import Tako.Auth.MtlsRefreshHook

/-!
# Introspections beside the refresh loop

Any number of introspections that share a refresh hook, under any interleaving with the loop of the
watcher, whose task may be aborted at any time. No trigger is lost or served twice, an introspection
that is sent again after a refresh has had a fetch of its own in between (`Course`), and its client
is then a later one (`introspect_concurrent`).
-/

namespace Tako.Auth

open Async
open Interleaving (Config)

/-! ## What the loop does for a trigger -/

/-- A fetch for the hook, and its reply. -/
def serving (hook : Nat) (f : FetchEnd) : List ProviderAct :=
  [.triggered hook, .fetched (some hook) f, .reply hook f.result]

/-- A hook that is replied to has been served with a fetch of its own, the triggers are taken in
their order, and at most one waits. -/
structure Sound (p : ProviderState) : Prop where
  last : Fits p.phase p.acts.getLast?
  served : ∀ hook r, .reply hook r ∈ p.acts →
    ∃ before f, before ++ serving hook f <+: p.acts ∧ f.result = r
  queue : p.acts.filterMap ProviderAct.trigger ++ p.hooks = List.range p.drawn
  room : p.hooks.length ≤ 1

theorem Sound.start : Sound {} where
  last := .start
  served := nofun
  queue := rfl
  room := Nat.zero_le _

/-- The end of a fetch for a hook comes right after its trigger. -/
theorem Effect.served_of_reply {s : ProviderState} {m : ProviderMove} {p : ProviderPhase}
    {acts : List ProviderAct} (e : Effect s m p acts) (hlast : Fits s.phase s.acts.getLast?)
    (h : .reply hook r ∈ acts) :
    ∃ before f, before ++ serving hook f = s.acts ++ acts ∧ f.result = r := by
  cases e with
  | idle | stopped => cases h
  | triggered | slept | fetched => cases List.mem_singleton.1 h
  | served hphase =>
    rw [hphase] at hlast
    generalize ho : s.acts.getLast? = o at hlast
    cases hlast
    obtain ⟨before, hbefore⟩ := List.getLast?_eq_some_iff.1 ho
    rcases List.mem_cons.1 h with h | h
    · cases h
    · cases List.mem_singleton.1 h
      exact ⟨before, _, by simp [hbefore, serving], rfl⟩

namespace MtlsProviderDeps

variable {D : MtlsProviderDeps} {s s' : ProviderState}

/-- Only a call of the hook puts a trigger into the channel. -/
theorem step_hooks {m : ProviderMove} (hm : m ≠ .forceRefresh) (hstep : D.step m s = some s') :
    s'.acts.filterMap ProviderAct.trigger ++ s'.hooks =
        s.acts.filterMap ProviderAct.trigger ++ s.hooks ∧
      s'.hooks.length ≤ s.hooks.length ∧ s'.drawn = s.drawn ∧ s.now ≤ s'.now := by
  cases m with
  | forceRefresh => exact absurd rfl hm
  | tick d =>
    cases hstep
    exact ⟨rfl, Nat.le_refl _, rfl, Nat.le_add_right _ _⟩
  | shutdown =>
    cases hstep
    exact ⟨rfl, Nat.le_refl _, rfl, Nat.le_refl _⟩
  | fetched systemNow fetched =>
    simp only [step] at hstep
    split at hstep
    · cases hstep
      exact ⟨by simp [ProviderAct.trigger], Nat.le_refl _, rfl, Nat.le_refl _⟩
    · cases hstep
      exact ⟨by simp [ProviderAct.trigger], Nat.le_refl _, rfl, Nat.le_refl _⟩
    · cases hstep
  | loop =>
    simp only [step] at hstep
    split at hstep
    · unfold select at hstep
      split at hstep
      · cases hstep
        exact ⟨rfl, Nat.le_refl _, rfl, Nat.le_refl _⟩
      split at hstep
      · next hook hooks hhooks =>
        cases hstep
        exact ⟨by simp [hhooks, ProviderAct.trigger], by simp [hhooks], rfl, Nat.le_refl _⟩
      · split at hstep
        · cases hstep
          exact ⟨by simp [ProviderAct.trigger], Nat.le_refl _, rfl, Nat.le_refl _⟩
        · cases hstep
    · cases hstep

end MtlsProviderDeps

namespace Sound

variable {D : MtlsProviderDeps} {p p' : ProviderState}

theorem step {m : ProviderMove} (h : Sound p) (hm : m ≠ .forceRefresh)
    (hstep : D.step m p = some p') : Sound p' ∧ p.acts <+: p'.acts := by
  obtain ⟨acts, hacts, e⟩ := MtlsProviderDeps.step_effect hstep
  obtain ⟨hqueue, hroom, hdrawn, -⟩ := MtlsProviderDeps.step_hooks hm hstep
  refine ⟨⟨hacts ▸ e.last h.last, fun hook r hr => ?_, ?_, hroom.trans h.room⟩, acts, hacts.symm⟩
  · rw [hacts] at hr ⊢
    rcases List.mem_append.1 hr with hr | hr
    · obtain ⟨before, f, hbefore, hf⟩ := h.served hook r hr
      exact ⟨before, f, hbefore.trans (List.prefix_append _ _), hf⟩
    · obtain ⟨before, f, hbefore, hf⟩ := e.served_of_reply h.last hr
      exact ⟨before, f, hbefore ▸ List.prefix_refl _, hf⟩
  · rw [hqueue, hdrawn, h.queue]

theorem stop (h : Sound p) : Sound { p with phase := .stopped } := { h with last := .stopped }

theorem enqueue (h : Sound p) (hempty : p.hooks = []) : Sound p.queue where
  last := h.last
  served := h.served
  queue := by
    have hqueue := h.queue
    rw [hempty, List.append_nil] at hqueue
    simp [ProviderState.queue, hempty, hqueue, List.range_succ]
  room := by simp [ProviderState.queue, hempty]

/-- A hook that is not drawn yet has no trigger. -/
theorem drawn_not_mem (h : Sound p) : p.drawn ∉ p.acts.filterMap ProviderAct.trigger := by
  intro hmem
  have hrange : p.drawn ∈ List.range p.drawn := h.queue ▸ List.mem_append_left _ hmem
  exact absurd (List.mem_range.1 hrange) (Nat.lt_irrefl _)

end Sound

/-- A fetch for a hook begins after everything before its trigger. -/
theorem prefix_of_serving {hook : Nat} {f : FetchEnd} {acts before all : List ProviderAct}
    (hacts : acts <+: all) (hbefore : before ++ serving hook f <+: all)
    (hnot : hook ∉ acts.filterMap ProviderAct.trigger) : acts <+: before := by
  have htriggered : before ++ [.triggered hook] <+: all :=
    List.IsPrefix.trans ⟨[.fetched (some hook) f, .reply hook f.result], by simp [serving]⟩ hbefore
  have hmem : hook ∈ (before ++ [ProviderAct.triggered hook]).filterMap ProviderAct.trigger := by
    simp [ProviderAct.trigger]
  rcases List.prefix_or_prefix_of_prefix hacts htriggered with h | h
  · rcases List.prefix_concat_iff.1 h with rfl | h
    · exact absurd hmem hnot
    · exact h
  · exact absurd ((h.filterMap _).subset hmem) hnot

theorem reloads_mono {acts acts' : List ProviderAct} (h : acts <+: acts') :
    reloads acts ≤ reloads acts' := h.sublist.countP_le

/-! ## What an introspection does -/

/-- What is done by a refresh that begins when the loop has done `seen`; it has done `seen'` at the
end. -/
inductive Refreshing (seen seen' : List ProviderAct) : List IntrospectAct → Prop
  | gone : Refreshing seen seen' [.refreshed (.error MtlsRefreshHook.sourceGone) t]
  | served : seen <+: before → before ++ serving hook f <+: seen' →
    Refreshing seen seen' [.sent hook t, .refreshed f.result t']
  | dropped :
    Refreshing seen seen' [.sent hook t, .refreshed (.error MtlsRefreshHook.replyDropped) t']
  | timedOut : t + refreshTimeout ≤ t' →
    Refreshing seen seen' [.sent hook t, .refreshed (.error MtlsRefreshHook.timedOut) t']

/-- What an introspection may have done: a POST, and if that has failed, a refresh and another
POST. -/
inductive Course : List IntrospectAct → Prop
  | unsent : Course []
  | posted : Course [.post seen r]
  | triggered : Course [.post seen (.error (.transport e)), .sent hook t]
  | refreshed : Refreshing seen seen' acts → Course (.post seen (.error (.transport e)) :: acts)
  | again : Refreshing seen seen' acts → seen' <+: seen'' →
    Course (.post seen (.error (.transport e)) :: (acts ++ [.post seen'' r]))

theorem Refreshing.mono {seen seen' seen'' : List ProviderAct} {acts : List IntrospectAct}
    (h : Refreshing seen seen' acts) (hseen : seen' <+: seen'') : Refreshing seen seen'' acts := by
  cases h with
  | gone => exact .gone
  | served hbefore hserved => exact .served hbefore (hserved.trans hseen)
  | dropped => exact .dropped
  | timedOut h => exact .timedOut h

/-- A refresh that works is a reload. -/
theorem Refreshing.reloads_lt {seen seen' : List ProviderAct}
    (h : Refreshing seen seen' [.sent hook t, .refreshed (.ok ()) t']) :
    reloads seen < reloads seen' := by
  generalize hr : (.ok () : Result Unit) = r at h
  cases h with
  | @served before _ f _ _ hbefore hserved =>
    calc reloads seen ≤ reloads before := reloads_mono hbefore
      _ < reloads (before ++ serving hook f) := by
        simp [reloads, serving, ProviderAct.isReload, ← hr, Except.isOk, Except.toBool]
      _ ≤ reloads seen' := reloads_mono hserved
  | dropped | timedOut => cases hr

/-- Between two POSTs there is a refresh. -/
theorem Course.refreshing {seen seen' : List ProviderAct} {r r' : Result (Answer Bool)}
    (h : Course (.post seen r :: (acts ++ [.post seen' r']))) :
    ∃ mid, Refreshing seen mid acts ∧ mid <+: seen' := by
  generalize hl : IntrospectAct.post seen r :: (acts ++ [.post seen' r']) = l at h
  cases h with
  | unsent => cases hl
  | posted => exact absurd (List.cons.inj hl).2 (by simp)
  | triggered => exact absurd (congrArg List.getLast? (List.cons.inj hl).2) (by simp)
  | refreshed hrefresh =>
    rw [(List.cons.inj hl).2.symm] at hrefresh
    generalize hacts : acts ++ [IntrospectAct.post seen' r'] = acts' at hrefresh
    have hlast := congrArg List.getLast? hacts
    cases hrefresh <;> exact absurd hlast (by simp)
  | again hrefresh hseen =>
    obtain ⟨hhead, htail⟩ := List.cons.inj hl
    obtain ⟨rfl, hlast⟩ := List.append_inj' htail rfl
    cases hhead
    cases hlast
    exact ⟨_, hrefresh, hseen⟩

/-- The client of the second POST is later than that of the first, if the refresh has worked. -/
theorem Course.reloads_lt {seen seen' : List ProviderAct} {r r' : Result (Answer Bool)}
    (h : Course [.post seen r, .sent hook t, .refreshed (.ok ()) t', .post seen' r']) :
    reloads seen < reloads seen' := by
  have hmiddle : Course (.post seen r :: ([.sent hook t, .refreshed (.ok ()) t'] ++
      [.post seen' r'])) := h
  obtain ⟨mid, hrefresh, hseen⟩ := hmiddle.refreshing
  exact hrefresh.reloads_lt.trans_le (reloads_mono hseen)

/-! ## What everybody keeps -/

namespace RefreshCell

variable {ι W : Type} [DecidableEq ι] {i j : ι}

/-- What `i` has done. -/
def course (i : ι) (s : RefreshCell ι W) : List IntrospectAct :=
  (s.calls.filter (·.1 = i)).map Prod.snd

@[simp] theorem course_record (i : ι) (a : IntrospectAct) (s : RefreshCell ι W) :
    (s.record i a).course i = s.course i ++ [a] := by
  simp [course, record, List.filter_append]

theorem course_record_of_ne (h : j ≠ i) (a : IntrospectAct) (s : RefreshCell ι W) :
    (s.record i a).course j = s.course j := by
  simp [course, record, List.filter_append, List.filter_cons_of_neg, h.symm]

end RefreshCell

namespace MtlsRefreshHook

variable {ι W : Type} [DecidableEq ι]

/-- The triggers that were sent are those that the loop has taken or will take, in their order. -/
structure Linked (s : RefreshCell ι W) : Prop where
  sound : Sound s.provider
  sent : s.calls.filterMap (·.2.hook) = List.range s.provider.drawn

/-- A later state, whoever has made the steps to it. -/
structure Advances (s s' : RefreshCell ι W) : Prop where
  linked : Linked s → Linked s'
  acts : Linked s → s.provider.acts <+: s'.provider.acts
  clock : s.provider.now ≤ s'.provider.now
  courses : ∀ i, Course (s.course i) → Course (s'.course i)

/-- What the others do leaves the course of `i` as it is. -/
def Rely (i : ι) (s s' : RefreshCell ι W) : Prop := Advances s s' ∧ s'.course i = s.course i

/-- What `i` does leaves the courses of the others as they are. -/
def Guarantee (i : ι) (s s' : RefreshCell ι W) : Prop :=
  Advances s s' ∧ ∀ j, j ≠ i → s'.course j = s.course j

variable {i j : ι} {s s' u : RefreshCell ι W} {a : IntrospectAct} {D : MtlsProviderDeps}

theorem Advances.refl (s : RefreshCell ι W) : Advances s s :=
  ⟨id, fun _ => List.prefix_refl _, Nat.le_refl _, fun _ h => h⟩

theorem Advances.trans (h : Advances s s') (h' : Advances s' u) : Advances s u where
  linked := h'.linked ∘ h.linked
  acts hs := (h.acts hs).trans (h'.acts (h.linked hs))
  clock := h.clock.trans h'.clock
  courses j hj := h'.courses j (h.courses j hj)

theorem Rely.refl (s : RefreshCell ι W) : Rely i s s := ⟨.refl s, rfl⟩

theorem Rely.trans (h : Rely i s s') (h' : Rely i s' u) : Rely i s u :=
  ⟨h.1.trans h'.1, h'.2.trans h.2⟩

theorem Guarantee.refl (s : RefreshCell ι W) : Guarantee i s s := ⟨.refl s, fun _ _ => rfl⟩

/-- A step of the loop, or none of anybody's. -/
theorem advances_of_goes (h : WatcherGoes D s s') :
    Advances s s' ∧ ∀ i, s'.course i = s.course i := by
  cases h with
  | moved hm hstep =>
    obtain ⟨-, -, hdrawn, hclock⟩ := MtlsProviderDeps.step_hooks hm hstep
    refine ⟨⟨fun hs => ⟨(hs.sound.step hm hstep).1, hs.sent.trans (hdrawn ▸ rfl)⟩,
      fun hs => (hs.sound.step hm hstep).2, hclock, fun _ => id⟩, fun _ => rfl⟩
  | aborted =>
    exact ⟨⟨fun hs => ⟨hs.sound.stop, hs.sent⟩, fun _ => List.prefix_refl _, Nat.le_refl _,
      fun _ => id⟩, fun _ => rfl⟩
  | elsewhere w =>
    exact ⟨⟨fun hs => ⟨hs.sound, hs.sent⟩, fun _ => List.prefix_refl _, Nat.le_refl _,
      fun _ => id⟩, fun _ => rfl⟩

theorem interference :
    Interference (WatcherGoes D) (Rely (W := W)) (Guarantee (ι := ι)) Advances where
  rely_refl _ := .refl
  rely_trans _ := .trans
  rely_of_guarantee hne h := ⟨h.1, h.2 _ hne⟩
  rely_of_env i _ _ h := ⟨(advances_of_goes h).1, (advances_of_goes h).2 i⟩
  refl := .refl
  trans := .trans
  of_guarantee _ _ _ h := h.1
  of_env h := (advances_of_goes h).1

/-- `i` does something, with the provider as it is or with a trigger in the channel. -/
theorem guarantee_record (hlinked : Linked s → Linked (s'.record i a))
    (hprovider : s'.provider.acts = s.provider.acts ∧ s'.provider.now = s.provider.now)
    (hcalls : s'.calls = s.calls) (hcourse : Course (s.course i ++ [a])) :
    Guarantee i s (s'.record i a) := by
  have hsame (j : ι) : s'.course j = s.course j := by
    unfold RefreshCell.course
    rw [hcalls]
  refine ⟨⟨hlinked, fun _ => ?_, ?_, fun j hj => ?_⟩, fun j hne => ?_⟩
  · exact hprovider.1 ▸ List.prefix_refl _
  · exact hprovider.2.ge
  · rcases eq_or_ne j i with rfl | hne
    · rwa [RefreshCell.course_record, hsame]
    · rwa [RefreshCell.course_record_of_ne hne, hsame]
  · rw [RefreshCell.course_record_of_ne hne, hsame]

/-! ## The programs -/

/-- `i` has done `l`. -/
structure At (i : ι) (l : List IntrospectAct) (s : RefreshCell ι W) : Prop where
  linked : Linked s
  course : s.course i = l

/-- The program is safe beside the others. -/
abbrev Proceeds {α : Type} (i : ι) (x : Async (RefreshCell ι W) α) (Q : α → RefreshCell ι W → Prop)
    (s : RefreshCell ι W) : Prop :=
  x.Safe (Rely i) (Guarantee i) (Guarantee i) Q s

variable {l : List IntrospectAct} {seen : List ProviderAct} {e : String} {hook t : Nat}

theorem At.rely (h : At i l s) (hs : Rely i s s') : At i l s' :=
  ⟨hs.1.linked h.linked, hs.2.trans h.course⟩

theorem At.acts_rely (h : At i l s) (hseen : seen <+: s.provider.acts) (hs : Rely i s s') :
    seen <+: s'.provider.acts := hseen.trans (hs.1.acts h.linked)

theorem At.record (h : At i l s) (w : W) (ha : a.hook = none) (hcourse : Course (l ++ [a])) :
    Guarantee i s ((s.inWorld w).record i a) ∧ At i (l ++ [a]) ((s.inWorld w).record i a) := by
  have hlinked (hs : Linked s) : Linked ((s.inWorld w).record i a) :=
    ⟨hs.sound, by simpa [RefreshCell.record, RefreshCell.inWorld, ha] using hs.sent⟩
  refine ⟨guarantee_record hlinked ⟨rfl, rfl⟩ rfl (h.course ▸ hcourse), hlinked h.linked, ?_⟩
  rw [RefreshCell.course_record, ← h.course]
  rfl

theorem At.send (h : At i l s) (hempty : s.provider.hooks = [])
    (hcourse : Course (l ++ [.sent s.provider.drawn s.provider.now])) :
    Guarantee i s ((s.withProvider s.provider.queue).record i
        (.sent s.provider.drawn s.provider.now)) ∧
      At i (l ++ [.sent s.provider.drawn s.provider.now])
        ((s.withProvider s.provider.queue).record i (.sent s.provider.drawn s.provider.now)) := by
  have hlinked (hs : Linked s) : Linked ((s.withProvider s.provider.queue).record i
      (.sent s.provider.drawn s.provider.now)) := by
    refine ⟨hs.sound.enqueue hempty, ?_⟩
    change (s.calls ++ [_]).filterMap _ = List.range (s.provider.drawn + 1)
    rw [List.filterMap_append, hs.sent, List.range_succ]
    rfl
  refine ⟨guarantee_record hlinked ⟨rfl, rfl⟩ rfl (h.course ▸ hcourse), hlinked h.linked, ?_⟩
  rw [RefreshCell.course_record, ← h.course]
  rfl

/-! ### The hook -/

/-- The refresh after a POST that has failed is over. -/
def Refreshed (i : ι) (seen : List ProviderAct) (e : String) (s : RefreshCell ι W) : Prop :=
  ∃ acts, Refreshing seen s.provider.acts acts ∧
    At i (.post seen (.error (.transport e)) :: acts) s

/-- The trigger has been sent, when it was not taken yet. -/
structure Pending (i : ι) (seen : List ProviderAct) (e : String) (hook t : Nat)
    (s : RefreshCell ι W) : Prop where
  at_sent : At i [.post seen (.error (.transport e)), .sent hook t] s
  clock : t ≤ s.provider.now
  before : ∃ acts, seen <+: acts ∧ acts <+: s.provider.acts ∧
    hook ∉ acts.filterMap ProviderAct.trigger

theorem Refreshed.rely (h : Refreshed i seen e s) (hs : Rely i s s') : Refreshed i seen e s' := by
  obtain ⟨acts, hrefresh, hat⟩ := h
  exact ⟨acts, hrefresh.mono (hs.1.acts hat.linked), hat.rely hs⟩

theorem Pending.rely (h : Pending i seen e hook t s) (hs : Rely i s s') :
    Pending i seen e hook t s' := by
  obtain ⟨acts, hseen, hacts, hnot⟩ := h.before
  exact ⟨h.at_sent.rely hs, h.clock.trans hs.1.clock, acts, hseen,
    h.at_sent.acts_rely hacts hs, hnot⟩

theorem trySend_spec (h : At i [.post seen (.error (.transport e))] s)
    (hseen : seen <+: s.provider.acts)
    (hready : (s.isGone || s.provider.hooks.isEmpty) = true) :
    Guarantee i s (trySend i s).2 ∧
      (trySend i s).1.elim (Refreshed i seen e (trySend i s).2)
        fun hook => ∃ t, Pending i seen e hook t (trySend i s).2 := by
  unfold trySend
  split
  · have hgone : Refreshing seen s.provider.acts
        [.refreshed (.error sourceGone) s.provider.now] := .gone
    obtain ⟨hG, hat⟩ := h.record s.world rfl (.refreshed hgone)
    exact ⟨hG, _, hgone, hat⟩
  · next hgone =>
    have hempty : s.provider.hooks = [] := by simpa [hgone] using hready
    obtain ⟨hG, hat⟩ := h.send hempty .triggered
    exact ⟨hG, _, hat, Nat.le_refl _, s.provider.acts, hseen, List.prefix_refl _,
      h.linked.sound.drawn_not_mem⟩

theorem send_proceeds (h : At i [.post seen (.error (.transport e))] s)
    (hseen : seen <+: s.provider.acts) : Proceeds i (send i) (fun o s' =>
      o.elim (Refreshed i seen e s') fun hook => ∃ t, Pending i seen e hook t s') s := by
  intro u hu
  refine ⟨.refl u, fun hready => ?_⟩
  obtain ⟨hG, hspec⟩ := trySend_spec (h.rely hu) (h.acts_rely hseen hu) hready
  refine ⟨hG, .pure fun v hv => ?_⟩
  cases ho : (trySend i u).1 with
  | none =>
    rw [ho] at hspec
    exact Refreshed.rely hspec hv
  | some hook =>
    rw [ho] at hspec
    obtain ⟨t, hpending⟩ := hspec
    exact ⟨t, hpending.rely hv⟩

/-- What is received is the result of a fetch for the hook, or that there is none. -/
theorem received_refreshing {deadline : Nat} (h : Pending i seen e hook t s)
    (hdeadline : t + refreshTimeout ≤ deadline)
    (hready : ((s.replyTo hook).isSome || s.isGone || decide (deadline ≤ s.provider.now)) = true) :
    Refreshing seen s.provider.acts
      [.sent hook t, .refreshed (received hook s) s.provider.now] := by
  unfold received
  cases hreply : s.replyTo hook with
  | some r =>
    obtain ⟨act, hmem, hact⟩ := List.exists_of_findSome?_eq_some hreply
    unfold ProviderAct.replyTo at hact
    split at hact
    · next h' r' =>
      obtain ⟨rfl, hr⟩ := Option.ite_none_right_eq_some.1 hact
      cases hr
      obtain ⟨before, f, hserved, rfl⟩ := h.at_sent.linked.sound.served _ _ hmem
      obtain ⟨acts, hseen, hacts, hnot⟩ := h.before
      exact .served (hseen.trans (prefix_of_serving hacts hserved hnot)) hserved
    · cases hact
  | none =>
    dsimp only
    split
    · exact .dropped
    · next hgone =>
      refine .timedOut (hdeadline.trans ?_)
      simpa [hreply, hgone] using hready

theorem receive_proceeds {deadline : Nat} (h : Pending i seen e hook t s)
    (hdeadline : t + refreshTimeout ≤ deadline) :
    Proceeds i (receive i hook deadline) (fun _ => Refreshed i seen e) s := by
  intro u hu
  refine ⟨.refl u, fun hready => ?_⟩
  have hrefresh := received_refreshing (h.rely hu) hdeadline hready
  obtain ⟨hG, hat⟩ := (h.rely hu).at_sent.record u.world (a := .refreshed _ _) rfl
    (.refreshed hrefresh)
  have hrefreshed : Refreshed i seen e
      (u.record i (.refreshed (received hook u) u.provider.now)) :=
    ⟨_, hrefresh, hat⟩
  exact ⟨hG, .pure fun v hv => hrefreshed.rely hv⟩

theorem forceRefresh_proceeds (h : At i [.post seen (.error (.transport e))] s)
    (hseen : seen <+: s.provider.acts) :
    Proceeds i (forceRefresh i) (fun _ => Refreshed i seen e) s := by
  refine .bind .refl (send_proceeds h hseen) fun o u hu => ?_
  cases o with
  | none => exact .pure fun v hv => Refreshed.rely hu hv
  | some hook =>
    obtain ⟨t, hpending⟩ := hu
    refine .bind .refl (P := fun deadline s' => Pending i seen e hook t s' ∧
      t + refreshTimeout ≤ deadline) (.read fun v hv => ⟨.refl v, .refl v, fun w hw => ?_⟩)
      fun deadline v hv => receive_proceeds hv.1 hv.2
    have hv := hpending.rely hv
    exact ⟨hv.rely hw, Nat.add_le_add_right hv.clock _⟩

end MtlsRefreshHook

/-! ### Introspections -/

namespace OidcAuthResolver

open MtlsRefreshHook

variable {J : Jsonwebtoken} {κ ι W : Type} [DecidableEq ι] {R : OidcAuthResolver κ}
  {B : OidcBackend J κ W} {post : Endpoint W} {D : MtlsProviderDeps} {i : ι}
  {s s' : RefreshCell ι W} {l : List IntrospectAct} {seen : List ProviderAct}

/-- The last that `i` has done is a POST, which came to `r`. -/
def Answered (i : ι) (r : Result (Answer Bool)) (s : RefreshCell ι W) : Prop :=
  ∃ l seen, At i (l ++ [.post seen r]) s

variable (R B) in
/-- What an introspection comes to: the answer to its last POST says so, if there is one. -/
def Concluded (i : ι) (r : Result Unit) (s : RefreshCell ι W) : Prop :=
  s.course i = [] ∧ (r = .ok () → R.introspection = none) ∨
    ∃ l seen answer, s.course i = l ++ [.post seen answer] ∧ r = answer >>= checkActive B

theorem Concluded.rely {r : Result Unit} (h : Concluded R B i r s)
    (hs : MtlsRefreshHook.Rely i s s') : Concluded R B i r s' := by
  unfold Concluded
  rwa [hs.2]

theorem Answered.rely {r : Result (Answer Bool)} (h : Answered i r s)
    (hs : MtlsRefreshHook.Rely i s s') : Answered i r s' := by
  obtain ⟨l, seen, hat⟩ := h
  exact ⟨l, seen, hat.rely hs⟩

theorem introspectSendOnceCall_proceeds (cfg : IntrospectionConfig κ)
    (form : List (String × String)) (h : At i l s)
    (hcourse : ∀ seen r, s.provider.acts <+: seen → Course (l ++ [.post seen r])) :
    Proceeds i (introspectSendOnceCall post i cfg form) (fun r s' =>
      ∃ seen, At i (l ++ [.post seen r]) s' ∧ seen <+: s'.provider.acts ∧
        ∀ e, r = .error e → ∃ msg, e = .transport msg) s := by
  refine .bind .refl (P := fun seen s' => At i l s' ∧ s.provider.acts <+: seen ∧
    seen <+: s'.provider.acts) (.read fun u hu => ⟨.refl u, .refl u, fun v hv => ?_⟩)
    fun seen u ⟨hat, hfrom, hseen⟩ => .atomically fun v hv => ⟨.refl v, ?_⟩
  · have hu' := h.rely hu
    exact ⟨hu'.rely hv, h.acts_rely (List.prefix_refl _) hu,
      hu'.acts_rely (List.prefix_refl _) hv⟩
  · obtain ⟨hG, hat'⟩ := (hat.rely hv).record
      (post (reloads seen) (introspectRequest cfg form) v.world).2 rfl (hcourse seen _ hfrom)
    have hseen' := hat.acts_rely hseen hv
    refine ⟨hG, fun x hx => ⟨seen, hat'.rely hx, hat'.acts_rely hseen' hx, fun e he => ?_⟩⟩
    obtain ⟨msg, -, rfl⟩ := Except.mapError_eq_error.1 he
    exact ⟨_, rfl⟩

theorem introspectSendCall_proceeds (cfg : IntrospectionConfig κ) (form : List (String × String))
    (h : At i [] s) : Proceeds i (R.introspectSendCall post i cfg form) (Answered i) s := by
  refine .bind .refl (introspectSendOnceCall_proceeds cfg form h fun _ _ _ => .posted)
    fun r u ⟨seen, hat, hseen, htransport⟩ => ?_
  cases r with
  | ok resp => exact .pure fun v hv => ⟨[], seen, hat.rely hv⟩
  | error e =>
    obtain ⟨msg, rfl⟩ := htransport e rfl
    dsimp only
    split
    · refine .bind .refl (forceRefresh_proceeds hat hseen) fun _ v ⟨acts, hrefresh, hat⟩ => ?_
      refine .weaken (introspectSendOnceCall_proceeds cfg form hat fun _ _ hlater =>
        .again hrefresh hlater) fun r x ⟨seen', hat', _⟩ => ?_
      exact ⟨_, seen', hat'⟩
    · exact .pure fun v hv => ⟨[], seen, hat.rely hv⟩

theorem introspectCall_proceeds (token : String) (h : At i [] s) :
    Proceeds i (R.introspectCall B post i token) (Concluded R B i) s := by
  unfold introspectCall
  cases hR : R.introspection with
  | none => exact .pure fun u hu => .inl ⟨(h.rely hu).course, fun _ => hR⟩
  | some cfg =>
    have hfailed {e : TakoError} {u : RefreshCell ι W} (hu : At i [] u) :
        Concluded R B i (.error e) u := .inl ⟨hu.course, nofun⟩
    refine .andThen .refl (P := fun _ => At i []) (.read fun u hu => ⟨.refl u, .refl u, ?_⟩)
      (fun jwt u hu => ?_) fun e u v hu hv => hfailed (hu.rely hv)
    · exact fun v hv => (h.rely hu).rely hv
    · refine .andThen .refl (P := fun _ => At i []) (.pure fun v hv => hu.rely hv)
        (fun _ v hv => ?_) fun e v x hv hx => hfailed (hv.rely hx)
      refine .andThen .refl (introspectSendCall_proceeds cfg _ hv) (fun resp x hx => ?_)
        fun e x y ⟨l, seen, hat⟩ hy => ?_
      · refine .pure fun y hy => ?_
        obtain ⟨l, seen, hat⟩ := hx.rely hy
        exact .inr ⟨l, seen, _, hat.course, rfl⟩
      · exact .inr ⟨l, seen, _, (hat.rely hy).course, rfl⟩

theorem introspections_safe (tokens : ι → String) (w : W) :
    AllSafe MtlsRefreshHook.Rely MtlsRefreshHook.Guarantee (Concluded R B)
      (R.introspections B post tokens w) := by
  intro i x hx
  obtain rfl := Option.some.inj hx
  exact introspectCall_proceeds (tokens i) ⟨⟨.start, rfl⟩, rfl⟩

/-- Any number of introspections share the hook of a watcher, whatever the loop does and even if its
task is aborted, and introspections may be dropped. The triggers that are sent are taken in their
order, each of them once, and at most one waits. An introspection sends one POST, or after a failed
one a refresh and a second POST. Its refresh comes to the result of a fetch that is made for it
alone, and begins after the failed POST has taken its client, unless the loop is gone or does not
reply for two seconds. If it works, the client of the second POST is a later one. -/
theorem introspect_concurrent (tokens : ι → String) (w : W)
    {c : Config ι (RefreshCell ι W) (Option (Async (RefreshCell ι W) (Result Unit)))}
    (h : Run (WatcherGoes D) (R.introspections B post tokens w) c) :
    (c.shared.calls.filterMap (·.2.hook) =
        c.shared.provider.acts.filterMap ProviderAct.trigger ++ c.shared.provider.hooks ∧
      (c.shared.calls.filterMap (·.2.hook)).Nodup ∧ c.shared.provider.hooks.length ≤ 1) ∧
    (∀ i, Course (c.shared.course i)) ∧
    (∀ i seen r hook t t' seen' r', c.shared.course i =
        [.post seen r, .sent hook t, .refreshed (.ok ()) t', .post seen' r'] →
      reloads seen < reloads seen') ∧
    ∀ i r, c.locals i = some (.done r) → Concluded R B i r c.shared := by
  obtain ⟨hsafe, hlater⟩ := Run.safe MtlsRefreshHook.interference h (introspections_safe tokens w)
  have hlinked := hlater.linked ⟨.start, rfl⟩
  have hcourse (i : ι) := hlater.courses i .unsent
  refine ⟨⟨?_, ?_, hlinked.sound.room⟩, hcourse, fun i seen r hook t t' seen' r' heq => ?_,
    fun i r hi => hsafe.result (MtlsRefreshHook.interference (D := D)) hi⟩
  · rw [hlinked.sent, hlinked.sound.queue]
  · rw [hlinked.sent]
    exact List.nodup_range
  · have hi := hcourse i
    rw [heq] at hi
    exact hi.reloads_lt

/-- An endpoint that refuses the client of the first reload. -/
def sampleEndpoint : Endpoint Nat := fun n _ now =>
  if n < 2 then (.error "handshake failure", now)
  else (.ok { status := 200, json := .ok true }, now)

def sampleMtls : OidcAuthResolver Unit :=
  { sampleResolver with
    introspection := some
      { introspectUri := "https://idp/introspect", clientId := "tako"
        authMethod := .tlsClientAuth, mtlsClient := true }
    mtlsRefreshHook := true }

/-- An introspection has its POST refused, the loop fetches once more for it, and the second POST is
answered. -/
theorem introspect_concurrent_refreshed :
    ∃ c, Run (WatcherGoes MtlsProviderDeps.sampleDeps)
        (sampleMtls.introspections sampleIssuer sampleEndpoint (fun _ : Unit => "single") 900) c ∧
      c.locals () = some (.done (.ok ())) ∧
      ∃ seen r t t' seen' r', c.shared.course () =
          [.post seen r, .sent 0 t, .refreshed (.ok ()) t', .post seen' r'] ∧
        reloads seen < reloads seen' := by
  let start := sampleMtls.introspections sampleIssuer sampleEndpoint (fun _ : Unit => "single") 900
  have fetched : Run (WatcherGoes MtlsProviderDeps.sampleDeps) start _ :=
    Run.elsewhere .refl (.moved (m := MtlsProviderDeps.sampleFetch) nofun rfl)
  have waiting := Run.advance (i := ()) fetched rfl 5
  have taken := Run.elsewhere waiting (.moved (m := .loop) nofun rfl)
  have replied := Run.elsewhere taken (.moved (m := MtlsProviderDeps.sampleFetch) nofun rfl)
  have answered := Run.advance (i := ()) replied rfl 3
  refine ⟨_, answered, rfl, _, _, _, _, _, _, rfl, ?_⟩
  exact (introspect_concurrent _ _ answered).2.2.1 () _ _ _ _ _ _ _ rfl

end OidcAuthResolver

end Tako.Auth
