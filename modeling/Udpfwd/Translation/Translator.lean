import Mathlib.Data.List.Sublists
import Mathlib.Logic.Function.Basic
import Udpfwd.Transition.Simulation

/-!
# Address translation

What a UDP forwarder is for, apart from how it is programmed. A **channel** binds an inner
socket, on which clients ask, to an outer socket of its own, which faces one server. What
arrives on the inner socket goes on from the outer socket to the server, and the channel notes
who asked; what the server sends to the outer socket goes back from the inner socket to the one
who asked last. Several channels may share an inner socket; `key` says to which of them a packet
belongs. Channels may be opened and closed, and a socket may be used again when its channel is
closed.

The types of channels, sockets, addresses and packets are arbitrary.

* `Separated.run` — no two channels ever share an outer socket;
* `reply_reaches_asker` — what the server answers goes back to the one who asked;
* `sent_sublist` — packets are passed on unchanged, in their order, and at most once;
* `simulated_reply` — the first of these, for a system that the translator simulates.
-/

universe u

namespace Translation

variable {κ ς α π : Type u}

/-- A datagram that arrives: on which socket, from where, and what is in it. -/
structure Reception (ς α π : Type u) where
  socket : ς
  source : α
  packet : π

/-- A datagram that leaves. -/
structure Sending (ς α π : Type u) where
  socket : ς
  packet : π
  target : α

/-- What a channel binds, and the address of the one who asked last. -/
structure Binding (ς α : Type u) where
  inner : ς
  outer : ς
  server : α
  peer : Option α

/-- The channels that are open. -/
abbrev Table (κ ς α : Type u) := κ → Option (Binding ς α)

/-- What happens at the translator. -/
inductive Event (κ ς α π : Type u)
  | opened (c : κ) (inner outer : ς) (server : α)
  | closed (c : κ)
  /-- A packet of a client goes to the server. -/
  | up (c : κ) (r : Reception ς α π) (s : Sending ς α π)
  /-- A packet of the server goes to the one who asked last, if somebody did. -/
  | down (c : κ) (r : Reception ς α π) (s : Option (Sending ς α π))
  /-- A packet that belongs to no channel. -/
  | ignored (r : Reception ς α π)

namespace Event

/-- What the event has received. -/
def received : Event κ ς α π → List (Reception ς α π)
  | opened .. | closed _ => []
  | up _ r _ | down _ r _ | ignored r => [r]

/-- What the event sends. -/
def sent : Event κ ς α π → List (Sending ς α π)
  | opened .. | closed _ | ignored _ => []
  | up _ _ s => [s]
  | down _ _ s => s.toList

end Event

/-- An event that receives nothing sends nothing. -/
theorem Event.sent_eq_nil {e : Event κ ς α π} (h : e.received = []) : e.sent = [] := by
  cases e with
  | opened | closed | ignored => rfl
  | up | down => exact absurd h (List.cons_ne_nil _ _)

/-- Among events that receive one datagram, one event receives it and does the sending. -/
theorem exists_of_received {es : List (Event κ ς α π)} {r : Reception ς α π}
    (h : es.flatMap (·.received) = [r]) :
    ∃ before e after, es = before ++ e :: after ∧ e.received = [r] ∧
      es.flatMap (·.sent) = e.sent := by
  have hquiet : ∀ {es : List (Event κ ς α π)}, es.flatMap (·.received) = [] →
      es.flatMap (·.sent) = [] := by
    intro es hes
    rw [List.flatMap_eq_nil_iff] at hes ⊢
    exact fun e he ↦ e.sent_eq_nil (hes e he)
  induction es with
  | nil => exact absurd h (by simp)
  | cons e es ih =>
    rw [List.flatMap_cons] at h
    rcases List.append_eq_singleton_iff.1 h with ⟨hnil, hrest⟩ | ⟨hfirst, hnil⟩
    · obtain ⟨before, e', after, rfl, hreceived, hsent⟩ := ih hrest
      refine ⟨e :: before, e', after, rfl, hreceived, ?_⟩
      rw [List.flatMap_cons, e.sent_eq_nil hnil, List.nil_append, hsent]
    · refine ⟨[], e, es, rfl, hfirst, ?_⟩
      rw [List.flatMap_cons, hquiet hnil, List.append_nil]

variable [DecidableEq κ] {key : ς → π → Option κ}

/-- One event at the translator. -/
inductive Step (key : ς → π → Option κ) (T : Table κ ς α) : Event κ ς α π → Table κ ς α → Prop
  /-- The outer socket of a new channel is in use for nothing else. -/
  | opened {c : κ} {inner outer : ς} {server : α} (hfree : T c = none) (hne : outer ≠ inner)
      (hfresh : ∀ c' b, T c' = some b → b.outer ≠ outer ∧ outer ≠ b.inner ∧ b.outer ≠ inner) :
      Step key T (.opened c inner outer server)
        (Function.update T c (some ⟨inner, outer, server, none⟩))
  | closed {c : κ} {b : Binding ς α} (hb : T c = some b) :
      Step key T (.closed c) (Function.update T c none)
  | up {c : κ} {b : Binding ς α} {r : Reception ς α π} (hkey : key r.socket r.packet = some c)
      (hb : T c = some b) (hsocket : r.socket = b.inner) :
      Step key T (.up c r ⟨b.outer, r.packet, b.server⟩)
        (Function.update T c (some { b with peer := some r.source }))
  | down {c : κ} {b : Binding ς α} {r : Reception ς α π} (hb : T c = some b)
      (hsocket : r.socket = b.outer) (hsource : r.source = b.server) :
      Step key T (.down c r (b.peer.map (⟨b.inner, r.packet, ·⟩))) T
  | ignored {r : Reception ς α π}
      (hup : ∀ c b, key r.socket r.packet = some c → T c = some b → r.socket ≠ b.inner)
      (hdown : ∀ c b, T c = some b → r.socket = b.outer → r.source ≠ b.server) :
      Step key T (.ignored r) T

/-- The translator. -/
def translator (key : ς → π → Option κ) : LTS (Table κ ς α) (Event κ ς α π) where
  step := Step key

/-! ### Outer sockets -/

/-- No outer socket is used for anything else. -/
structure Separated (T : Table κ ς α) : Prop where
  outer_injective : ∀ {c c' b b'}, T c = some b → T c' = some b' → b.outer = b'.outer → c = c'
  outer_ne_inner : ∀ {c c' b b'}, T c = some b → T c' = some b' → b.outer ≠ b'.inner

section Outer

variable {T T' : Table κ ς α} {e : Event κ ς α π} {c c' : κ} {b b' : Binding ς α}

omit [DecidableEq κ] in
theorem Separated.empty : Separated (fun _ ↦ none : Table κ ς α) :=
  ⟨nofun, nofun⟩

theorem update_eq_some {o : Option (Binding ς α)} (h : Function.update T c o c' = some b') :
    c' = c ∧ o = some b' ∨ c' ≠ c ∧ T c' = some b' := by
  rcases eq_or_ne c' c with rfl | hne
  · rw [Function.update_self] at h
    exact .inl ⟨rfl, h⟩
  · rw [Function.update_of_ne hne] at h
    exact .inr ⟨hne, h⟩

/-- Asking keeps the sockets of a channel. -/
theorem Separated.ask (hsep : Separated T) {peer : Option α} (hb : T c = some b) :
    Separated (Function.update T c (some { b with peer := peer })) := by
  -- every binding has the sockets of one that was there before
  have hbefore : ∀ {c' b'}, Function.update T c (some { b with peer := peer }) c' = some b' →
      ∃ b'', T c' = some b'' ∧ b''.inner = b'.inner ∧ b''.outer = b'.outer := by
    intro c' b' h
    rcases update_eq_some h with ⟨rfl, hnew⟩ | ⟨-, hold⟩
    · obtain rfl := Option.some.inj hnew
      exact ⟨b, hb, rfl, rfl⟩
    · exact ⟨b', hold, rfl, rfl⟩
  constructor
  · intro c₁ c₂ b₁ b₂ h₁ h₂ houter
    obtain ⟨b₁', hb₁, -, ho₁⟩ := hbefore h₁
    obtain ⟨b₂', hb₂, -, ho₂⟩ := hbefore h₂
    exact hsep.outer_injective hb₁ hb₂ (ho₁.trans (houter.trans ho₂.symm))
  · intro c₁ c₂ b₁ b₂ h₁ h₂
    obtain ⟨b₁', hb₁, -, ho₁⟩ := hbefore h₁
    obtain ⟨b₂', hb₂, hi₂, -⟩ := hbefore h₂
    rw [← ho₁, ← hi₂]
    exact hsep.outer_ne_inner hb₁ hb₂

/-- Every event keeps the outer sockets separated. -/
theorem Separated.step (hsep : Separated T) (hst : Step key T e T') : Separated T' := by
  cases hst with
  | @opened c inner outer server hfree hne hfresh =>
    constructor
    · intro c₁ c₂ b₁ b₂ h₁ h₂ houter
      rcases update_eq_some h₁ with ⟨rfl, hnew₁⟩ | ⟨-, hold₁⟩ <;>
        rcases update_eq_some h₂ with ⟨rfl, hnew₂⟩ | ⟨-, hold₂⟩
      · rfl
      · obtain rfl := Option.some.inj hnew₁
        exact absurd houter.symm (hfresh _ _ hold₂).1
      · obtain rfl := Option.some.inj hnew₂
        exact absurd houter (hfresh _ _ hold₁).1
      · exact hsep.outer_injective hold₁ hold₂ houter
    · intro c₁ c₂ b₁ b₂ h₁ h₂
      rcases update_eq_some h₁ with ⟨rfl, hnew₁⟩ | ⟨-, hold₁⟩ <;>
        rcases update_eq_some h₂ with ⟨rfl, hnew₂⟩ | ⟨-, hold₂⟩
      · obtain rfl := Option.some.inj hnew₁
        obtain rfl := Option.some.inj hnew₂
        exact hne
      · obtain rfl := Option.some.inj hnew₁
        exact (hfresh _ _ hold₂).2.1
      · obtain rfl := Option.some.inj hnew₂
        exact (hfresh _ _ hold₁).2.2
      · exact hsep.outer_ne_inner hold₁ hold₂
  | @closed c b hb =>
    have hbefore : ∀ {c' b'}, Function.update T c none c' = some b' → T c' = some b' := by
      intro c' b' h
      rcases update_eq_some h with ⟨-, h⟩ | ⟨-, h⟩
      · exact absurd h (by simp)
      · exact h
    exact ⟨fun h₁ h₂ ↦ hsep.outer_injective (hbefore h₁) (hbefore h₂),
      fun h₁ h₂ ↦ hsep.outer_ne_inner (hbefore h₁) (hbefore h₂)⟩
  | up _ hb => exact hsep.ask hb
  | down => exact hsep
  | ignored => exact hsep

/-- **No two channels ever share an outer socket**, however often sockets are used again. -/
theorem Separated.run {h : List (Event κ ς α π)} (hsep : Separated T)
    (hrun : (translator key).Run T h T') : Separated T' :=
  hrun.invariant (fun _ _ _ hsep hst ↦ Separated.step hsep hst) hsep

/-- What one event leaves of an open channel, unless it closes the channel or somebody else
asks. -/
theorem Step.keeps (hst : Step key T e T') (hb : T c = some b) (hopen : e ≠ .closed c)
    (hpeer : ∀ r s, e = .up c r s → b.peer = some r.source) : T' c = some b := by
  cases hst with
  | @opened c' inner outer server hfree =>
    have hne : c ≠ c' := by
      rintro rfl
      rw [hb] at hfree
      exact absurd hfree (by simp)
    rwa [Function.update_of_ne hne]
  | @closed c' =>
    have hne : c ≠ c' := by
      rintro rfl
      exact hopen rfl
    rwa [Function.update_of_ne hne]
  | @up c' b' r _ hb' =>
    rcases eq_or_ne c c' with rfl | hne
    · obtain rfl := Option.some.inj (hb.symm.trans hb')
      rw [Function.update_self, ← hpeer _ _ rfl]
    · rwa [Function.update_of_ne hne]
  | down => exact hb
  | ignored => exact hb

theorem run_keeps {h : List (Event κ ς α π)} (hrun : (translator key).Run T h T')
    (hb : T c = some b) (hopen : .closed c ∉ h)
    (hpeer : ∀ r s, .up c r s ∈ h → b.peer = some r.source) : T' c = some b := by
  induction hrun with
  | nil => exact hb
  | @snoc h T₁ T₂ e _ hst ih =>
    have hb₁ := ih (fun hmem ↦ hopen (List.mem_append_left _ hmem))
      fun r s hmem ↦ hpeer r s (List.mem_append_left _ hmem)
    refine Step.keeps hst hb₁ (fun heq ↦ hopen ?_) fun r s heq ↦ hpeer r s ?_
    · exact List.mem_append_right _ (List.mem_singleton.2 heq.symm)
    · exact List.mem_append_right _ (List.mem_singleton.2 heq.symm)

end Outer

/-! ### Replies -/

section Replies

variable {T₀ T T' : Table κ ς α} {before later : List (Event κ ς α π)} {e : Event κ ς α π}
variable {c : κ} {b : Binding ς α} {r r' : Reception ς α π} {s : Sending ς α π}

/-- What the server of a channel sends to its outer socket goes to the one who asked last. -/
theorem Step.answer (hsep : Separated T) (hst : Step key T e T') (hb : T c = some b)
    (hreceived : e.received = [r]) (hsocket : r.socket = b.outer) (hsource : r.source = b.server) :
    e = .down c r (b.peer.map (⟨b.inner, r.packet, ·⟩)) ∧ T' = T := by
  cases hst with
  | opened => exact absurd hreceived (by simp [Event.received])
  | closed => exact absurd hreceived (by simp [Event.received])
  | @up c' b' r' hkey hb' hinner =>
    obtain rfl := List.head_eq_of_cons_eq hreceived
    exact absurd (hsocket.symm.trans hinner) (hsep.outer_ne_inner hb hb')
  | @down c' b' r' hb' houter hserver =>
    obtain rfl := List.head_eq_of_cons_eq hreceived
    obtain rfl := hsep.outer_injective hb hb' (hsocket.symm.trans houter)
    obtain rfl := Option.some.inj (hb.symm.trans hb')
    exact ⟨rfl, rfl⟩
  | ignored _ hdown =>
    obtain rfl := List.head_eq_of_cons_eq hreceived
    exact absurd hsource (hdown c b hb hsocket)

/-- **Replies reach the one who asked.** Let a client ask, so that a packet leaves. A later
packet that comes from where this packet was sent to, on the socket that it left from, is sent
on to the client, from the socket that the client asked on, if the channel has not been closed
and nobody else has asked on it in between. -/
theorem reply_reaches_asker (hsep : Separated T₀)
    (hrun : (translator key).Run T₀ (before ++ .up c r s :: later) T)
    (hopen : .closed c ∉ later) (hsame : ∀ r' s', .up c r' s' ∈ later → r'.source = r.source)
    (hst : (translator key).step T e T') (hreceived : e.received = [r'])
    (hsocket : r'.socket = s.socket) (hsource : r'.source = s.target) :
    e.sent = [⟨r.socket, r'.packet, r.source⟩] := by
  obtain ⟨T₁, hbefore, hrest⟩ := hrun.split
  obtain ⟨T₂, hask, hlater⟩ := hrest.exists_of_cons
  have hsepT : Separated T := hsep.run hrun
  cases show Step key T₁ _ T₂ from hask with
  | @up c b r hkey hb hinner =>
    have hbound : T c = some { b with peer := some r.source } :=
      run_keeps hlater (Function.update_self ..) hopen fun r' s' hmem ↦ by
        rw [hsame r' s' hmem]
    obtain ⟨rfl, -⟩ := Step.answer hsepT hst hbound hreceived hsocket hsource
    show [Sending.mk b.inner r'.packet r.source] = _
    rw [hinner]

/-- The event neither closes the channel `c` nor has anybody but `a` ask on it. -/
def Event.Keeps (c : κ) (a : α) (e : Event κ ς α π) : Prop :=
  e ≠ .closed c ∧ ∀ r s, e = .up c r s → r.source = a

/-- **Replies reach the one who asked, in a system that the translator simulates.** A client
asks in the step `l`; the step `l'` receives a packet from where the packet of the client was
sent to, on the socket that it left from. If no step in between closes the channel or has
anybody else ask on it, then `l'` sends the packet on to the client. -/
theorem simulated_reply {σ ℓ : Type*} {M : LTS σ ℓ} {R : σ → Table κ ς α → Prop}
    {Matches : ℓ → List (Event κ ς α π) → Prop} {s₀ t t' : σ} {past later : List ℓ} {l l' : ℓ}
    {p : π} (hsim : LTS.Simulation M (translator key) R Matches) (hR : R s₀ T₀)
    (hsep : Separated T₀) (hrun : M.Run s₀ (past ++ l :: later) t) (hst : M.step t l' t')
    (hask : ∀ es, Matches l es → .up c r s ∈ es)
    (hkeeps : ∀ m ∈ l :: later ++ [l'], ∀ es, Matches m es → ∀ e ∈ es, e.Keeps c r.source)
    (hreceived : ∀ es, Matches l' es → es.flatMap (·.received) = [⟨s.socket, s.target, p⟩]) :
    ∃ es, Matches l' es ∧ es.flatMap (·.sent) = [⟨r.socket, p, r.source⟩] := by
  obtain ⟨u, hpast, hrest⟩ := hrun.split
  obtain ⟨u', hquery, hlater⟩ := hrest.exists_of_cons
  obtain ⟨ess, T₁, -, hrun₁, hR₁⟩ := hsim.run hR hpast
  obtain ⟨es, T₂, hmatch, hrun₂, hR₂⟩ := hsim.step hR₁ hquery
  obtain ⟨ess', T₃, hmatches, hrun₃, hR₃⟩ := hsim.run hR₂ hlater
  obtain ⟨es', T₄, hmatch', hrun₄, -⟩ := hsim.step hR₃ hst
  obtain ⟨es₁, es₂, rfl⟩ := List.append_of_mem (hask es hmatch)
  obtain ⟨es₃, e, es₄, rfl, he, hsent⟩ := exists_of_received (hreceived es' hmatch')
  obtain ⟨T₅, hrun₅, hrest'⟩ := hrun₄.split
  obtain ⟨T₆, hlast, -⟩ := hrest'.exists_of_cons
  -- what happens after the client has asked and before the reply
  have hbetween : ∀ e' ∈ es₂ ++ ess'.flatten ++ es₃, e'.Keeps c r.source := by
    intro e' he'
    rw [List.mem_append, List.mem_append] at he'
    rcases he' with (he' | he') | he'
    · exact hkeeps l (by simp) _ hmatch e' (by simp [he'])
    · obtain ⟨m, hm, es, hes, he'⟩ := LTS.Simulation.exists_of_mem_flatten hmatches he'
      exact hkeeps m (by simp [hm]) es hes e' he'
    · exact hkeeps l' (by simp) _ hmatch' e' (by simp [he'])
  have hwhole : (translator key).Run T₀
      ((ess.flatten ++ es₁) ++ .up c r s :: (es₂ ++ ess'.flatten ++ es₃)) T₅ := by
    simpa using ((hrun₁.append hrun₂).append hrun₃).append hrun₅
  refine ⟨_, hmatch', hsent.trans ?_⟩
  exact reply_reaches_asker hsep hwhole (fun hmem ↦ (hbetween _ hmem).1 rfl)
    (fun r' s' hmem ↦ (hbetween _ hmem).2 r' s' rfl) hlast he rfl rfl

end Replies

/-! ### Packets -/

/-- An event sends on what it has received, or nothing. -/
theorem Step.sent_sublist {T T' : Table κ ς α} {e : Event κ ς α π} (hst : Step key T e T') :
    (e.sent.map (·.packet)).Sublist (e.received.map (·.packet)) := by
  cases hst with
  | opened => exact List.Sublist.refl _
  | closed => exact List.Sublist.refl _
  | up => exact List.Sublist.refl _
  | @down c b =>
    rcases b.peer with - | a
    · exact List.nil_sublist _
    · exact List.Sublist.refl _
  | ignored => exact List.nil_sublist _

/-- **Packets are passed on unchanged, in their order, and at most once.** -/
theorem sent_sublist {T T' : Table κ ς α} {h : List (Event κ ς α π)}
    (hrun : (translator key).Run T h T') :
    ((h.flatMap (·.sent)).map (·.packet)).Sublist
      ((h.flatMap (·.received)).map (·.packet)) := by
  induction hrun with
  | nil => exact List.Sublist.refl _
  | snoc _ hst ih =>
    simp only [List.flatMap_append, List.map_append, List.flatMap_singleton]
    exact ih.append (Step.sent_sublist hst)

end Translation
