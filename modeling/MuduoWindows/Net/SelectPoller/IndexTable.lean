import MuduoWindows.Net.SelectPoller

/-! # The index table of the select poller

The registered channels stand in `pollfds_` in some order, each knows its position, and its entry
holds its descriptor or the negated one. `SelectPoller::updateChannel` does not negate the
descriptor in the entry of a channel that it registers, and `removeChannel` does not reset the
index of the channel that it removes.
-/

namespace MuduoWindows.Net.SelectPoller
open Library
variable {P : Type}

def Encodes (pfd : Pollfd) (c : Channel) : Prop :=
  (pfd.fd = c.fd ∨ pfd.fd = -(c.fd : ℤ) - 1) ∧ pfd.events = c.events.setWidth 16

/-- The registered channels are `ps`, in the order of their entries `f`. -/
structure Layout (s : SelectPoller P) (ps : List P) (f : P → Pollfd) : Prop where
  distinct : ∀ p q, (s.channel p).fd = (s.channel q).fd → p = q
  numbered : Numbered ps s.index
  channels : ∀ k p, s.channels k = some p ↔ p ∈ ps ∧ k = (s.channel p).fd
  pollfds : s.pollfds = ps.map f
  encodes : ∀ p ∈ ps, Encodes (f p) (s.channel p)

/-- The entries of channels without interest are the negated ones. -/
def Negated (s : SelectPoller P) (ps : List P) (f : P → Pollfd) : Prop :=
  ∀ p ∈ ps, f p = entry (s.channel p)

theorem entry_encodes (c : Channel) : Encodes (entry c) c := by
  refine ⟨?_, rfl⟩
  unfold entry
  split_ifs
  · exact .inr rfl
  · exact .inl rfl

theorem Encodes.channelAtEnd {pfd : Pollfd} {c : Channel} (h : Encodes pfd c) :
    channelAtEnd pfd.fd = c.fd := by
  unfold SelectPoller.channelAtEnd
  rcases h.1 with hfd | hfd <;> rw [hfd] <;> split_ifs <;> omega

theorem create_layout {fd : P → ℕ} (hfd : Function.Injective fd) (f : P → Pollfd) :
    (create fd).Layout [] f := by
  refine ⟨fun p q h => hfd h, fun i p h => ?_, fun k p => ?_, rfl, fun p hp => ?_⟩
  · cases h
  · exact iff_of_false nofun fun h => List.not_mem_nil h.1
  · exact absurd hp List.not_mem_nil

variable {s s' : SelectPoller P} {ps : List P} {f : P → Pollfd} {p q : P}

theorem Layout.registered_iff (h : s.Layout ps f) : s.Registered p ↔ p ∈ ps := by
  unfold Registered
  rw [h.channels]
  exact and_iff_left rfl

theorem Layout.eq_of_fd (h : s.Layout ps f)
    (hfd : ((s.channel p).fd : ℤ) = (s.channel q).fd) : p = q :=
  h.distinct p q (Int.ofNat_inj.mp hfd)

theorem Layout.length (h : s.Layout ps f) : s.pollfds.length = ps.length := by
  rw [h.pollfds, List.length_map]

theorem Layout.position (h : s.Layout ps f) (hp : p ∈ ps) :
    ∃ i : ℕ, ps[i]? = some p ∧ s.index p = i ∧ i < s.pollfds.length ∧
      s.pollfds[i]? = some (f p) := by
  obtain ⟨i, hi, hindex, hlt⟩ := h.numbered.of_mem hp
  refine ⟨i, hi, hindex, by rwa [h.length], ?_⟩
  rw [h.pollfds, List.getElem?_map, hi]
  rfl

theorem Layout.channels_none (h : s.Layout ps f) (hp : p ∉ ps) :
    s.channels (s.channel p).fd = none := by
  cases hq : s.channels (s.channel p).fd with
  | none => rfl
  | some q =>
    obtain ⟨hmem, hfd⟩ := (h.channels _ _).mp hq
    obtain rfl := h.eq_of_fd hfd
    exact absurd hmem hp

/-- A change of the interest that the poller does not see yet. -/
def changed (s : SelectPoller P) [DecidableEq P] (p : P) (change : Change) : SelectPoller P :=
  { s with channel := Function.update s.channel p (change.apply (s.channel p)) }

theorem apply_fd (change : Change) (c : Channel) : (change.apply c).fd = c.fd := by
  cases change <;> rfl

section Steps
variable [DecidableEq P]

theorem changed_channel_self (change : Change) :
    (s.changed p change).channel p = change.apply (s.channel p) := Function.update_self _ _ _

theorem changed_channel_of_ne (change : Change) (hq : q ≠ p) :
    (s.changed p change).channel q = s.channel q := Function.update_of_ne hq _ _

theorem changed_fd (change : Change) (q : P) :
    ((s.changed p change).channel q).fd = (s.channel q).fd := by
  by_cases hq : q = p
  · rw [hq, changed_channel_self, apply_fd]
  · rw [changed_channel_of_ne change hq]

/-- The poller after the registration of a channel. -/
def added (s : SelectPoller P) (p : P) : SelectPoller P :=
  { s with
    pollfds := s.pollfds ++
      [{ fd := (s.channel p).fd, events := (s.channel p).events.setWidth 16 }]
    index := Function.update s.index p s.pollfds.length
    channels := Function.update s.channels (s.channel p).fd (some p) }

/-- The poller after the update of a channel that it knows. -/
def updated (s : SelectPoller P) (p : P) : SelectPoller P :=
  { s with pollfds := s.pollfds.set (s.index p).toNat (entry (s.channel p)) }

theorem updateChannel_new (hneg : s.index p < 0) (hnone : s.channels (s.channel p).fd = none) :
    s.updateChannel p = .ok (s.added p) := by
  unfold updateChannel added
  dsimp only
  rw [if_pos hneg, require_bind hnone, pure_eq_ok, List.length_append, List.length_singleton]
  push_cast
  rw [add_sub_cancel_right]

theorem updateChannel_existing {i : ℕ} (hsome : s.channels (s.channel p).fd = some p)
    (hindex : s.index p = i) (hlt : i < s.pollfds.length)
    (hfd : s.pollfds[i]?.map Pollfd.fd = some ((s.channel p).fd : ℤ) ∨
      s.pollfds[i]?.map Pollfd.fd = some (-((s.channel p).fd : ℤ) - 1)) :
    s.updateChannel p = .ok (s.updated p) := by
  have hne : s.channels (s.channel p).fd ≠ none := by rw [hsome]; nofun
  unfold updateChannel updated
  dsimp only
  rw [if_neg (by omega), require_bind hne, require_bind hsome,
    require_bind (by rw [hindex]; omega), hindex, Int.toNat_natCast, require_bind hfd, pure_eq_ok]

theorem updateChannel_stale (hpos : 0 ≤ s.index p) (hnone : s.channels (s.channel p).fd = none) :
    s.updateChannel p =
      .error (.assertion "channels_.find(channel->fd()) != channels_.end()") := by
  have hfalse : ¬ s.channels (s.channel p).fd ≠ none := fun hne => hne hnone
  unfold updateChannel
  dsimp only
  rw [if_neg (by omega)]
  change (require (s.channels (s.channel p).fd ≠ none) _ >>= _) = _
  rw [require_false hfalse, error_bind]

theorem Layout.added (h : s.Layout ps f) (hp : p ∉ ps) :
    (s.added p).Layout (ps ++ [p])
      (Function.update f p { fd := (s.channel p).fd
                             events := (s.channel p).events.setWidth 16 }) := by
  refine ⟨h.distinct, ?_, fun k q => ?_, ?_, fun q hq => ?_⟩
  · have hnumbered := h.numbered.append hp
    rwa [← h.length] at hnumbered
  · change Function.update s.channels _ (some p) k = some q ↔ q ∈ ps ++ [p] ∧ k = (s.channel q).fd
    rw [List.mem_append, List.mem_singleton]
    by_cases hk : k = (s.channel p).fd
    · rw [hk, Function.update_self, Option.some.injEq]
      constructor
      · rintro rfl
        exact ⟨.inr rfl, rfl⟩
      · rintro ⟨-, hfd⟩
        exact h.eq_of_fd hfd
    · rw [Function.update_of_ne hk, h.channels]
      constructor
      · exact fun hq => ⟨.inl hq.1, hq.2⟩
      · rintro ⟨hq | rfl, hfd⟩
        · exact ⟨hq, hfd⟩
        · exact absurd hfd hk
  · change s.pollfds ++ [_] = _
    rw [List.map_append, List.map_singleton, Function.update_self, map_update_of_not_mem f hp,
      h.pollfds]
  · change Encodes _ (s.channel q)
    rcases List.mem_append.mp hq with hold | hnew
    · have hne : q ≠ p := by
        rintro rfl
        exact hp hold
      rw [Function.update_of_ne hne]
      exact h.encodes q hold
    · obtain rfl := List.mem_singleton.mp hnew
      rw [Function.update_self]
      exact ⟨.inl rfl, rfl⟩

theorem Layout.updated (h : s.Layout ps f) {change : Change} (hp : p ∈ ps) :
    ((s.changed p change).updated p).Layout ps
      (Function.update f p (entry (change.apply (s.channel p)))) := by
  obtain ⟨i, hi, hindex, -, -⟩ := h.position hp
  refine ⟨fun a b hab => ?_, h.numbered, fun k q => ?_, ?_, fun q hq => ?_⟩
  · change ((s.changed p change).channel a).fd = ((s.changed p change).channel b).fd at hab
    rw [changed_fd, changed_fd] at hab
    exact h.distinct a b hab
  · change s.channels k = some q ↔ q ∈ ps ∧ k = ((s.changed p change).channel q).fd
    rw [changed_fd]
    exact h.channels k q
  · change s.pollfds.set (s.index p).toNat (entry ((s.changed p change).channel p)) = _
    rw [hindex, Int.toNat_natCast, h.pollfds, h.numbered.map_set hi, changed_channel_self]
  · change Encodes _ ((s.changed p change).channel q)
    by_cases hqp : q = p
    · rw [hqp, Function.update_self, changed_channel_self]
      exact entry_encodes _
    · rw [Function.update_of_ne hqp, changed_channel_of_ne change hqp]
      exact h.encodes q hq

theorem Layout.change_cases (h : s.Layout ps f) {change : Change}
    (hs : s.change p change = .ok s') :
    (s.index p < 0 ∧ p ∉ ps ∧ s' = (s.changed p change).added p) ∨
      p ∈ ps ∧ s' = (s.changed p change).updated p := by
  change (s.changed p change).updateChannel p = .ok s' at hs
  have hfd := changed_fd (s := s) (p := p) change p
  by_cases hp : p ∈ ps
  · obtain ⟨i, hi, hindex, hlt, hpfd⟩ := h.position hp
    have hsome : s.channels (s.channel p).fd = some p := h.registered_iff.mpr hp
    have hentry := (h.encodes p hp).1
    refine .inr ⟨hp, ?_⟩
    rw [updateChannel_existing (s := s.changed p change) (by rw [hfd]; exact hsome) hindex hlt]
      at hs
    · exact (Except.ok.inj hs).symm
    · rw [hfd]
      change s.pollfds[i]?.map Pollfd.fd = _ ∨ s.pollfds[i]?.map Pollfd.fd = _
      rw [hpfd]
      exact hentry.imp (congrArg some) (congrArg some)
  · have hnone := h.channels_none hp
    by_cases hneg : s.index p < 0
    · rw [updateChannel_new (s := s.changed p change) hneg (by rw [hfd]; exact hnone)] at hs
      exact .inl ⟨hneg, hp, (Except.ok.inj hs).symm⟩
    · rw [updateChannel_stale (s := s.changed p change) (not_lt.mp hneg)
        (by rw [hfd]; exact hnone)] at hs
      cases hs

/-- The poller without a channel; the last one has taken its place. -/
def removed (s : SelectPoller P) (p last : P) : SelectPoller P :=
  { s with
    channels := Function.update s.channels (s.channel p).fd none
    index := Function.update s.index last (s.index p)
    pollfds := swapRemove s.pollfds (s.index p).toNat }

theorem Layout.negated_of_remove (h : s.Layout ps f) (hs : s.remove p = .ok s') :
    p ∈ ps ∧ (s.channel p).isNoneEvent = true ∧ f p = entry (s.channel p) := by
  unfold remove at hs
  obtain ⟨hnone, hs⟩ := require_bind_eq_ok.mp hs
  unfold removeChannel at hs
  obtain ⟨-, hs⟩ := require_bind_eq_ok.mp hs
  obtain ⟨hsome, hs⟩ := require_bind_eq_ok.mp hs
  obtain ⟨-, hs⟩ := require_bind_eq_ok.mp hs
  obtain ⟨-, hs⟩ := require_bind_eq_ok.mp hs
  obtain ⟨⟨hfd, -⟩, -⟩ := require_bind_eq_ok.mp hs
  have hp := h.registered_iff.mp hsome
  obtain ⟨i, -, hindex, -, hpfd⟩ := h.position hp
  rw [hindex, Int.toNat_natCast, hpfd, Option.map_some, Option.some.injEq] at hfd
  refine ⟨hp, hnone, ?_⟩
  have hevents := (h.encodes p hp).2
  cases hf : f p with
  | mk fd events =>
    rw [hf] at hfd hevents
    unfold entry
    rw [if_pos hnone]
    exact congrArg₂ Pollfd.mk hfd hevents

theorem Layout.remove_eq (h : s.Layout ps f) (hp : p ∈ ps)
    (hnone : (s.channel p).isNoneEvent = true) (hneg : f p = entry (s.channel p)) :
    ∃ last, ps[ps.length - 1]? = some last ∧ s.remove p = .ok (s.removed p last) := by
  obtain ⟨i, hi, hindex, hlt, hpfd⟩ := h.position hp
  have hilen : i < ps.length := by rwa [h.length] at hlt
  have hsome : s.channels (s.channel p).fd = some p := h.registered_iff.mpr hp
  have hne : s.channels (s.channel p).fd ≠ none := by rw [hsome]; nofun
  have hevents : (s.channel p).events = 0 := Channel.isNoneEvent_iff.mp hnone
  have hassert : s.pollfds[i]?.map Pollfd.fd = some (-((s.channel p).fd : ℤ) - 1) ∧
      s.pollfds[i]?.map (fun pfd => pfd.events.signExtend 32) = some (s.channel p).events := by
    rw [hpfd, hneg, Option.map_some, Option.map_some]
    unfold entry
    rw [if_pos hnone, hevents]
    exact ⟨rfl, rfl⟩
  obtain ⟨last, hlast⟩ : ∃ last, ps[ps.length - 1]? = some last :=
    ⟨_, List.getElem?_eq_getElem (by omega)⟩
  refine ⟨last, hlast, ?_⟩
  unfold remove removeChannel removed
  dsimp only
  rw [require_bind hnone, require_bind hne, require_bind hsome, require_bind hnone,
    require_bind (by rw [hindex]; omega), hindex, Int.toNat_natCast, require_bind hassert]
  split_ifs with hend
  · have hi' : i = s.pollfds.length - 1 := by omega
    have hself : last = p := by
      rw [h.length] at hi'
      rw [← hi', hi] at hlast
      exact (Option.some.inj hlast).symm
    rw [hi', swapRemove_last, hself, ← hi', ← hindex, Function.update_eq_self]
    rfl
  · have hlastmem : last ∈ ps := List.mem_of_getElem? hlast
    have hlastp : last ≠ p := by
      rintro rfl
      obtain ⟨j, hj, hjindex, -⟩ := h.position hlastmem
      have hjend := h.numbered _ _ hlast
      rw [hindex] at hjend
      rw [h.length] at hend
      omega
    have hback : s.pollfds.getLast? = some (f last) := by
      rw [List.getLast?_eq_getElem?, h.length, h.pollfds, List.getElem?_map, hlast]
      rfl
    have hkey := (h.encodes last hlastmem).channelAtEnd
    have hother : ((s.channel last).fd : ℤ) ≠ (s.channel p).fd := by
      intro heq
      exact hlastp (h.eq_of_fd heq)
    rw [hback, Option.map_some, Option.bind_some, hkey, Function.update_of_ne hother,
      h.registered_iff.mpr hlastmem]
    rfl

theorem Layout.removed (h : s.Layout ps f) {i : ℕ} (hi : ps[i]? = some p) {last : P}
    (hlast : ps[ps.length - 1]? = some last) :
    (s.removed p last).Layout (swapRemove ps i) f := by
  have hindex := h.numbered i p hi
  have hmem : ∀ q, q ∈ swapRemove ps i ↔ q ∈ ps ∧ q ≠ p := fun q => h.numbered.mem_swapRemove hi
  refine ⟨h.distinct, ?_, fun k q => ?_, ?_, fun q hq => h.encodes q ((hmem q).mp hq).1⟩
  · change Numbered _ (Function.update s.index last (s.index p))
    rw [hindex]
    exact h.numbered.swapRemove (List.getElem?_eq_some_iff.mp hi).1 hlast
  · change Function.update s.channels _ none k = some q ↔ _ ∧ k = (s.channel q).fd
    rw [hmem]
    by_cases hk : k = (s.channel p).fd
    · rw [hk, Function.update_self]
      refine iff_of_false nofun fun hq => hq.1.2 ?_
      exact h.eq_of_fd hq.2.symm
    · rw [Function.update_of_ne hk, h.channels]
      constructor
      · rintro ⟨hq, hfd⟩
        refine ⟨⟨hq, ?_⟩, hfd⟩
        rintro rfl
        exact hk hfd
      · exact fun hq => ⟨hq.1.1, hq.2⟩
  · change swapRemove s.pollfds (s.index p).toNat = _
    rw [hindex, Int.toNat_natCast, h.pollfds, swapRemove_map]

/-- A channel is registered with an interest, and not changed again once it has been removed. -/
def Proper (s : SelectPoller P) : Event P → Prop
  | .change p change =>
      (s.index p < 0 → (change.apply (s.channel p)).isNoneEvent = false) ∧
        (0 ≤ s.index p → s.Registered p)
  | .remove _ => True

/-- `channels_` and `pollfds_` have the same size, and every registered channel has an entry of its
own, with the negated descriptor exactly when it has no interest. -/
structure Table (s : SelectPoller P) : Prop where
  size : {k | s.channels k ≠ none}.encard = s.pollfds.length
  entry : ∀ p, s.Registered p → ∃ i : ℕ, s.index p = i ∧ s.pollfds[i]?.map Pollfd.fd =
    some (if (s.channel p).isNoneEvent then -((s.channel p).fd : ℤ) - 1 else (s.channel p).fd)
  distinct : ∀ p q, s.Registered p → s.Registered q → s.index p = s.index q → p = q

omit [DecidableEq P] in
theorem Layout.size (h : s.Layout ps f) :
    {k | s.channels k ≠ none}.encard = s.pollfds.length := by
  have hkeys : {k | s.channels k ≠ none} = (fun p => ((s.channel p).fd : ℤ)) '' {p | p ∈ ps} := by
    ext k
    change s.channels k ≠ none ↔ _
    rw [Option.ne_none_iff_exists', Set.mem_image]
    refine exists_congr fun p => ?_
    rw [h.channels, eq_comm (a := k)]
    rfl
  rw [hkeys, Function.Injective.encard_image fun p q hpq => h.eq_of_fd hpq,
    h.length]
  classical
  have hfinset : {p | p ∈ ps} = (ps.toFinset : Set P) := by
    ext p
    simp
  rw [hfinset, Set.encard_coe_eq_coe_finsetCard, List.toFinset_card_of_nodup h.numbered.nodup]

omit [DecidableEq P] in
theorem Layout.table (h : s.Layout ps f) (hneg : s.Negated ps f) : s.Table := by
  refine ⟨h.size, fun p hp => ?_, fun p q hp hq => ?_⟩
  · have hmem := h.registered_iff.mp hp
    obtain ⟨i, -, hindex, -, hpfd⟩ := h.position hmem
    refine ⟨i, hindex, ?_⟩
    rw [hpfd, hneg p hmem]
    rfl
  · exact h.numbered.injective (h.registered_iff.mp hp) (h.registered_iff.mp hq)

def Laid (s : SelectPoller P) : Prop := ∃ ps f, s.Layout ps f

def Neat (s : SelectPoller P) : Prop := ∃ ps f, s.Layout ps f ∧ s.Negated ps f

theorem Layout.changed (h : s.Layout ps f) (change : Change) (hp : p ∉ ps) :
    (s.changed p change).Layout ps f := by
  refine ⟨fun a b hab => ?_, h.numbered, fun k q => ?_, h.pollfds, fun q hq => ?_⟩
  · rw [changed_fd, changed_fd] at hab
    exact h.distinct a b hab
  · rw [changed_fd]
    exact h.channels k q
  · rw [changed_channel_of_ne]
    · exact h.encodes q hq
    · rintro rfl
      exact hp hq

theorem Laid.step (h : s.Laid) {e : Event P} (hs : machine.step s e = .ok s') : s'.Laid := by
  obtain ⟨ps, f, h⟩ := h
  cases e with
  | change p change =>
    rcases h.change_cases hs with ⟨-, hp, rfl⟩ | ⟨hp, rfl⟩
    · exact ⟨_, _, (h.changed change hp).added hp⟩
    · exact ⟨_, _, h.updated hp⟩
  | remove p =>
    obtain ⟨hp, hnone, hneg⟩ := h.negated_of_remove hs
    obtain ⟨last, hlast, heq⟩ := h.remove_eq hp hnone hneg
    obtain ⟨i, hi, -⟩ := h.position hp
    exact ⟨_, _, Except.ok.inj (heq.symm.trans hs) ▸ h.removed hi hlast⟩

theorem Layout.neat_added (h : s.Layout ps f) (hneg : s.Negated ps f) {change : Change}
    (hp : p ∉ ps) (hsome : (change.apply (s.channel p)).isNoneEvent = false) :
    ((s.changed p change).added p).Neat := by
  refine ⟨_, _, (h.changed change hp).added hp, fun q hq => ?_⟩
  change _ = SelectPoller.entry ((s.changed p change).channel q)
  by_cases hqp : q = p
  · rw [hqp, Function.update_self, changed_channel_self]
    unfold SelectPoller.entry
    rw [if_neg (by rw [hsome]; nofun)]
  · rw [Function.update_of_ne hqp, changed_channel_of_ne change hqp]
    rcases List.mem_append.mp hq with hold | hnew
    · exact hneg q hold
    · exact absurd (List.mem_singleton.mp hnew) hqp

theorem Layout.neat_updated (h : s.Layout ps f) (hneg : s.Negated ps f) {change : Change}
    (hp : p ∈ ps) : ((s.changed p change).updated p).Neat := by
  refine ⟨_, _, h.updated hp, fun q hq => ?_⟩
  change _ = SelectPoller.entry ((s.changed p change).channel q)
  by_cases hqp : q = p
  · rw [hqp, Function.update_self, changed_channel_self]
  · rw [Function.update_of_ne hqp, changed_channel_of_ne change hqp]
    exact hneg q hq

theorem Layout.change_registered (h : s.Layout ps f) (hp : p ∈ ps) (change : Change) :
    s.change p change = .ok ((s.changed p change).updated p) := by
  obtain ⟨i, hi, hindex, hlt, hpfd⟩ := h.position hp
  have hfd := changed_fd (s := s) (p := p) change p
  have hsome : s.channels (s.channel p).fd = some p := h.registered_iff.mpr hp
  refine updateChannel_existing (s := s.changed p change) (by rw [hfd]; exact hsome) hindex hlt ?_
  rw [hfd]
  change s.pollfds[i]?.map Pollfd.fd = _ ∨ s.pollfds[i]?.map Pollfd.fd = _
  rw [hpfd]
  exact (h.encodes p hp).1.imp (congrArg some) (congrArg some)

theorem Neat.step (h : s.Neat) {e : Event P} (he : machine.enabled s e) (hproper : s.Proper e) :
    ∃ s', machine.step s e = .ok s' ∧ s'.Neat := by
  obtain ⟨ps, f, h, hneg⟩ := h
  cases e with
  | change p change =>
    rcases lt_or_ge (s.index p) 0 with hindex | hindex
    · have hp : p ∉ ps := h.numbered.not_mem_of_neg hindex
      have hnone := h.channels_none hp
      refine ⟨_, ?_, h.neat_added hneg hp (hproper.1 hindex)⟩
      exact updateChannel_new (s := s.changed p change) hindex
        (by rw [changed_fd]; exact hnone)
    · have hp := h.registered_iff.mp (hproper.2 hindex)
      exact ⟨_, h.change_registered hp change, h.neat_updated hneg hp⟩
  | remove p =>
    have hp := h.registered_iff.mp he.1
    obtain ⟨last, hlast, heq⟩ := h.remove_eq hp he.2 (hneg p hp)
    obtain ⟨i, hi, -⟩ := h.position hp
    refine ⟨_, heq, _, _, h.removed hi hlast, fun q hq => ?_⟩
    exact hneg q ((h.numbered.mem_swapRemove hi).mp hq).1

theorem Neat.proper_of_step (h : s.Neat) {e : Event P} (hs : machine.step s e = .ok s')
    (htable : s'.Table) : s.Proper e := by
  obtain ⟨ps, f, h, -⟩ := h
  cases e with
  | change p change =>
    rcases h.change_cases hs with ⟨hindex, hp, rfl⟩ | ⟨hp, rfl⟩
    · refine ⟨fun _ => ?_, fun hpos => absurd hindex (not_lt_of_ge hpos)⟩
      have hlayout := (h.changed change hp).added hp
      have hmem : p ∈ ps ++ [p] := List.mem_append_right _ (List.mem_singleton_self p)
      obtain ⟨i, hi, hentry⟩ := htable.entry p (hlayout.registered_iff.mpr hmem)
      obtain ⟨j, -, hj, -, hpfd⟩ := hlayout.position hmem
      obtain rfl : i = j := by
        rw [hi] at hj
        exact_mod_cast hj
      rw [hpfd, Function.update_self, Option.map_some, Option.some.injEq] at hentry
      change ((s.changed p change).channel p).fd = (if ((s.changed p change).channel p).isNoneEvent
        then -(((s.changed p change).channel p).fd : ℤ) - 1
        else ((s.changed p change).channel p).fd : ℤ) at hentry
      rw [changed_channel_self] at hentry
      by_contra hnone
      rw [if_pos (Bool.eq_true_of_not_eq_false hnone)] at hentry
      omega
    · refine ⟨fun hneg => absurd hp (h.numbered.not_mem_of_neg hneg), fun _ => ?_⟩
      exact h.registered_iff.mpr hp
  | remove p => trivial

omit [DecidableEq P] in
theorem Neat.table (h : s.Neat) : s.Table := by
  obtain ⟨ps, f, hlayout, hneg⟩ := h
  exact hlayout.table hneg

theorem neat_of_run {fd : P → ℕ} (hfd : Function.Injective fd) {es : List (Event P)}
    (h : machine.Run Proper (create fd) es s) : s.Neat := by
  refine h.invariant Neat ?_ fun t e u ht he hproper hu => ?_
  · exact ⟨[], fun _ => ⟨0, 0⟩, create_layout hfd _, fun p hp => absurd hp List.not_mem_nil⟩
  · obtain ⟨v, hv, hneat⟩ := ht.step he hproper
    exact Except.ok.inj (hv.symm.trans hu) ▸ hneat

/-- As long as channels are registered with an interest and not changed after their removal, no
assertion fails and the index table is kept; the first other step breaks it. -/
theorem index_table {fd : P → ℕ} (hfd : Function.Injective fd) {es : List (Event P)}
    {s : SelectPoller P} (h : machine.Run Proper (create fd) es s) :
    s.Table ∧ ∀ e, machine.enabled s e →
      (s.Proper e ↔ ∃ s', machine.step s e = .ok s' ∧ s'.Table) := by
  have hneat := neat_of_run hfd h
  refine ⟨hneat.table, fun e he => ⟨fun hproper => ?_, ?_⟩⟩
  · obtain ⟨s', hs', hneat'⟩ := hneat.step he hproper
    exact ⟨s', hs', hneat'.table⟩
  · rintro ⟨s', hs', htable'⟩
    exact hneat.proper_of_step hs' htable'

instance (s : SelectPoller P) : ∀ e, Decidable (s.Proper e)
  | .change _ _ => inferInstanceAs (Decidable ((_ → _) ∧ (_ → _)))
  | .remove _ => .isTrue trivial

end Steps

/-- Three channels of which the first one is removed: the last one takes its place. -/
theorem index_table_three : ∃ s : SelectPoller (Fin 3), machine.Run Proper
    (create fun p => p.val + 5)
    [.change 0 .enableReading, .change 1 .enableReading, .change 2 .enableWriting,
      .change 2 .disableAll, .change 0 .disableAll, .remove 0] s ∧
    s.Table ∧ s.index 2 = 0 := by
  obtain ⟨s, hs, hp⟩ := Machine.exists_run_of_exec machine Proper
    (create fun p : Fin 3 => p.val + 5)
    [.change 0 .enableReading, .change 1 .enableReading, .change 2 .enableWriting,
      .change 2 .disableAll, .change 0 .disableAll, .remove 0]
    (fun s => decide (s.index 2 = 0)) (by decide +kernel)
  refine ⟨s, hs, (index_table (fun p q hpq => ?_) hs).1, of_decide_eq_true hp⟩
  exact Fin.val_injective (Nat.add_right_cancel hpq)

/-- A channel that is enabled again after its removal fails an assertion, and one that is registered
without interest has an entry that is not negated, so that its removal fails one. -/
theorem index_table_broken :
    (∃ es, ∃ s : SelectPoller Unit, machine.Run Machine.Any (create fun _ => 5) es s ∧
      machine.enabled s (.change () .enableReading) ∧
      machine.step s (.change () .enableReading) =
        .error (.assertion "channels_.find(channel->fd()) != channels_.end()")) ∧
    (∃ es, ∃ s : SelectPoller Unit, machine.Run Machine.Any (create fun _ => 5) es s ∧
      s.Registered () ∧ (s.channel ()).isNoneEvent = true ∧
      s.pollfds[0]?.map Pollfd.fd = some 5) ∧
    ∃ es, ∃ s : SelectPoller Unit, machine.Run Machine.Any (create fun _ => 5) es s ∧
      machine.enabled s (.remove ()) ∧ machine.step s (.remove ()) = .error (.assertion
        "pfd.fd == -channel->fd() - 1 && pfd.events == channel->events()") := by
  refine ⟨?_, ?_, ?_⟩
  · obtain ⟨s, hs, he, hstep⟩ := Machine.exists_fault_of_exec machine Machine.Any
      (create fun _ : Unit => 5)
      [.change () .enableReading, .change () .disableAll, .remove ()]
      (.change () .enableReading)
      (.assertion "channels_.find(channel->fd()) != channels_.end()") (by decide +kernel)
    exact ⟨_, s, hs, he, hstep⟩
  · obtain ⟨s, hs, hp⟩ := Machine.exists_run_of_exec machine Machine.Any
      (create fun _ : Unit => 5) [.change () .disableReading]
      (fun s => decide (s.Registered () ∧ (s.channel ()).isNoneEvent = true ∧
        s.pollfds[0]?.map Pollfd.fd = some 5)) (by decide +kernel)
    exact ⟨_, s, hs, of_decide_eq_true hp⟩
  · obtain ⟨s, hs, he, hstep⟩ := Machine.exists_fault_of_exec machine Machine.Any
      (create fun _ : Unit => 5) [.change () .disableReading] (.remove ())
      (.assertion "pfd.fd == -channel->fd() - 1 && pfd.events == channel->events()")
      (by decide +kernel)
    exact ⟨_, s, hs, he, hstep⟩

end MuduoWindows.Net.SelectPoller
