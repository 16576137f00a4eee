import FluxMQ.Mqtt.SessionIdentity

/-!
# Sessions stay with their principals

What a CONNECT that has authenticated as one principal can do to the session of another one.

* `Node.Holds`: a node has a session of a principal for a client ID, in memory or stored.
* `Node.OwnedBy`: all that a node has for a client ID is of one principal.
* `Admissible`: the conditions under which the checks of the identity suffice.
* `Inv`: whatever a session carries is of its principal, and so is its connection.
* `inv_step`, `kept_step`: a step keeps the invariant, and what it does on behalf of one principal leaves
  the sessions of the others alone.
* `sessions_isolated`: both hold in every run.
* `leftovers_inherited`, `alias_deleted`: a session that is handed over to a node with leftovers of another
  principal, and client IDs that the keys of the database do not tell apart.
-/

namespace FluxMQ.Mqtt.Identity

open Keyspace Storage Local Contents Function World List

variable {μ ν : Type}

/-! ### What belongs to whom -/

/-- A session and its connection are of one principal, and so is all that it carries. -/
structure Session.Sound (s : Session μ) : Prop where
  bound : s.externalID ≠ ""
  connection : ∀ y, s.connection = some y → y = s.externalID
  items : ∀ item ∈ s.contents.items, item.principal = s.externalID

lemma Contents.forall_items {c : Contents μ} {P : Item μ → Prop} :
    (∀ item ∈ c.items, P item) ↔
      (∀ sub ∈ c.subscriptions, P sub.2) ∧ (∀ e ∈ c.inflight, P e.2.2) ∧ (∀ item ∈ c.queue, P item) ∧
        ∀ item, c.will = some item → P item := by
  simp only [items, mem_append, mem_map, Option.mem_toList]
  constructor
  · intro h
    exact ⟨fun sub hsub => h _ (.inl (.inl (.inl ⟨sub, hsub, rfl⟩))),
      fun e he => h _ (.inl (.inl (.inr ⟨e, he, rfl⟩))), fun item hitem => h _ (.inl (.inr hitem)),
      fun item hitem => h _ (.inr hitem)⟩
  rintro ⟨hsubs, hinflight, hqueue, hwill⟩ item (((⟨sub, hsub, rfl⟩ | ⟨e, he, rfl⟩) | hitem) | hitem)
  · exact hsubs sub hsub
  · exact hinflight e he
  · exact hqueue item hitem
  · exact hwill item hitem

namespace Node

variable (n : Node μ) (clientID : String)

/-- The node has a session of the principal for the client ID, in memory or else in its database. -/
def Holds (x : String) : Prop :=
  (∃ s, n.sessions clientID = some s ∧ s.externalID = x) ∨
    n.sessions clientID = none ∧
      ∃ interval, ((Key.session clientID).render, Stored.session x interval) ∈ storedFor clientID n.db

/-- All that is stored for the client ID is of the principal. -/
def StoredBy (y : String) : Prop :=
  ∀ entry ∈ storedFor clientID n.db, entry.2.principal = y

/-- All that the node has for the client ID is of the principal. -/
structure OwnedBy (y : String) : Prop where
  session : ∀ s, n.sessions clientID = some s → s.Sound ∧ s.externalID = y
  stored : n.StoredBy clientID y

/-- The node has nothing for the client ID but what is left of sessions that have ended. -/
def Unheld : Prop := ∀ x, ¬ n.Holds clientID x

/-- There is one principal for a client ID at most. -/
def Coherent : Prop := (∃ y, y ≠ "" ∧ n.OwnedBy clientID y) ∨ n.Unheld clientID

end Node

section

variable {n : Node μ} {clientID x y : String}

lemma Node.OwnedBy.eq_of_holds (h : n.OwnedBy clientID y) (hx : n.Holds clientID x) : x = y := by
  rcases hx with ⟨s, hs, rfl⟩ | ⟨-, interval, hmem⟩
  · exact (h.session s hs).2
  · exact h.stored _ hmem

/-- A node that holds a session has nothing else. -/
lemma Node.Coherent.ownedBy (h : n.Coherent clientID) (hx : n.Holds clientID x) :
    x ≠ "" ∧ n.OwnedBy clientID x := by
  rcases h with ⟨y, hy, howned⟩ | hnone
  · obtain rfl := howned.eq_of_holds hx
    exact ⟨hy, howned⟩
  · exact absurd hx (hnone x)

end

/-! ### Stores -/

section

variable {l : Local μ} {clientID y : String} {op : Operation (Stored μ)}
  {ops : List (Operation (Stored μ))}

/-- Whatever the operation stores is of the principal. -/
def Puts (clientID y : String) (op : Operation (Stored μ)) : Prop :=
  ∀ key value, Change.put key value ∈ op.changes clientID → value.principal = y

lemma Puts.of_changes {key : List Char} {value : Stored μ} (hchanges : op.changes clientID = [.put key value])
    (h : value.principal = y) : Puts clientID y op := by
  intro key' value' hmem
  rw [hchanges] at hmem
  cases mem_singleton.1 hmem
  exact h

/-- The operation stores nothing. -/
def Deletes (op : Operation (Stored μ)) : Prop :=
  ∀ clientID key value, Change.put key value ∉ op.changes clientID

lemma Deletes.puts (h : Deletes op) : Puts clientID y op :=
  fun key value hmem => absurd hmem (h clientID key value)

lemma deletes_session : Deletes (.deleteSession : Operation (Stored μ)) := by
  intro clientID key value h
  cases mem_singleton.1 h

lemma deletes_will : Deletes (.deleteWill : Operation (Stored μ)) := by
  intro clientID key value h
  cases mem_singleton.1 h

lemma deletes_queued : Deletes (.deleteQueued : Operation (Stored μ)) := by
  intro clientID key value h
  cases mem_singleton.1 h

lemma deletes_inflight : Deletes (.deleteInflight : Operation (Stored μ)) := by
  intro clientID key value h
  cases mem_singleton.1 h

lemma deletes_durable {steps : Nat} :
    Deletes (.deleteDurableSessionState steps : Operation (Stored μ)) := by
  intro clientID key value h
  have hmem := mem_of_mem_take h
  simp at hmem

/-- What is in the database after some operations was there or has been stored by one of them. -/
lemma mem_perform {entry : List Char × Stored μ} (h : entry ∈ (l.perform clientID ops).node.db) :
    entry ∈ l.node.db ∨ ∃ op ∈ ops, Change.put entry.1 entry.2 ∈ op.changes clientID := by
  induction ops generalizing l with
  | nil => exact .inl h
  | cons op ops ih =>
    rcases ih (l := l.perform clientID [op]) h with hmem | ⟨op', hop', hput⟩
    · rcases mem_of_mem_perform hmem with hmem | hput
      · exact .inl hmem
      · exact .inr ⟨op, mem_cons_self, hput⟩
    · exact .inr ⟨op', mem_cons_of_mem _ hop', hput⟩

/-- Operations of one client make no difference to another one. -/
lemma storedFor_perform_of_ne {other : String} (hne : clientID ≠ other) (hclient : Clean clientID)
    (hother : Clean other) :
    storedFor other (l.perform clientID ops).node.db = storedFor other l.node.db := by
  induction ops generalizing l with
  | nil => rfl
  | cons op ops ih =>
    calc storedFor other ((l.perform clientID [op]).perform clientID ops).node.db
        = storedFor other (l.perform clientID [op]).node.db := ih
      _ = storedFor other l.node.db := storedFor_perform op _ hne hclient hother

section

variable (h : l.node.StoredBy clientID y)
include h

lemma storedBy_perform (hops : ∀ op ∈ ops, Puts clientID y op) :
    (l.perform clientID ops).node.StoredBy clientID y := by
  intro entry hentry
  obtain ⟨hmem, hbelongs⟩ := mem_restrict.1 hentry
  rcases mem_perform hmem with hmem | ⟨op, hop, hput⟩
  · exact h entry (mem_restrict.2 ⟨hmem, hbelongs⟩)
  · exact hops op hop _ _ hput

/-- What an operation answers is of the principal that all that is stored is of. -/
lemma principal_of_answer {value : Stored μ} (hvalue : value ∈ l.answer clientID op) :
    value.principal = y := by
  obtain ⟨entry, hentry, rfl⟩ := mem_map.1 hvalue
  obtain ⟨hmem, hbelongs⟩ := belongs_of_answer hentry
  exact h entry (mem_restrict.2 ⟨hmem, by simpa using hbelongs⟩)

lemma principal_of_storedQueue {item : Item μ} (hitem : item ∈ l.storedQueue clientID) :
    item.principal = y := by
  obtain ⟨value, hvalue, heq⟩ := mem_filterMap.1 hitem
  have hprincipal := principal_of_answer h hvalue
  cases value <;> cases heq
  exact hprincipal

lemma principal_of_storedInflight {e : Nat × Nat × Item μ} (he : e ∈ l.storedInflight clientID) :
    e.2.2.principal = y := by
  obtain ⟨value, hvalue, heq⟩ := mem_filterMap.1 he
  have hprincipal := principal_of_answer h hvalue
  cases value <;> cases heq
  exact hprincipal

lemma principal_of_storedSubscriptions {sub : String × Item μ}
    (hsub : sub ∈ l.storedSubscriptions clientID) : sub.2.principal = y := by
  obtain ⟨value, hvalue, heq⟩ := mem_filterMap.1 hsub
  have hprincipal := principal_of_answer h hvalue
  cases value <;> cases heq
  exact hprincipal

lemma principal_of_storedWill {item : Item μ} (hitem : l.storedWill clientID = some item) :
    item.principal = y := by
  obtain ⟨value, hvalue, heq⟩ := exists_of_findSome?_eq_some hitem
  have hprincipal := principal_of_answer h hvalue
  cases value <;> cases heq
  exact hprincipal

end

/-- A record that is found is in the database. -/
lemma mem_of_record {stored : String × Nat} (h : l.record clientID = some stored) :
    ((Key.session clientID).render, Stored.session stored.1 stored.2) ∈ storedFor clientID l.node.db := by
  obtain ⟨value, hvalue, heq⟩ := exists_of_findSome?_eq_some h
  obtain ⟨entry, hentry, rfl⟩ := mem_map.1 hvalue
  obtain ⟨hmem, hkey⟩ := key_of_mem_find hentry
  obtain ⟨key, value⟩ := entry
  cases value <;> cases heq
  have hbelongs : Belongs clientID (Key.session clientID).render := .inl rfl
  exact mem_restrict.2 ⟨hkey ▸ hmem, by simpa using hbelongs⟩

/-- A record that is in the database is found, or another one. -/
lemma record_isSome {x : String} {interval : Nat}
    (h : ((Key.session clientID).render, Stored.session x interval) ∈ storedFor clientID l.node.db) :
    (l.record clientID).isSome = true := by
  have hfind : ((Key.session clientID).render, Stored.session x interval) ∈
      find (Key.session clientID).render l.node.db :=
    mem_restrict.2 ⟨(mem_restrict.1 h).1, by simp⟩
  rw [record, findSome?_isSome_iff]
  exact ⟨.session x interval, mem_map.2 ⟨_, hfind, rfl⟩, rfl⟩

/-- The whole of `deleteDurableSessionState` leaves nothing of the client. -/
lemma storedFor_deleteDurable :
    storedFor clientID (l.perform clientID [.deleteDurableSessionState 4]).node.db = [] := by
  refine eq_nil_iff_forall_not_mem.2 fun entry hentry => ?_
  obtain ⟨hmem, hbelongs⟩ := mem_restrict.1 hentry
  have hgone : entry.1 ≠ (Key.session clientID).render ∧ entry.1 ≠ (Key.will clientID).render ∧
      ¬ subscriptionStart clientID <+: entry.1 ∧ ¬ clientID.toList ++ ['/'] <+: entry.1 := by
    simp only [Local.perform, foldl_cons, foldl_nil, Operation.changes, take_succ_cons,
      take_zero, Keyspace.perform, Change.apply] at hmem
    obtain ⟨hmem, hwill⟩ := mem_restrict.1 hmem
    obtain ⟨hmem, hslash⟩ := mem_restrict.1 hmem
    obtain ⟨hmem, hsubscription⟩ := mem_restrict.1 hmem
    obtain ⟨-, hsession⟩ := mem_restrict.1 hmem
    refine ⟨by simpa using hsession, by simpa using hwill, ?_, ?_⟩
    · rw [← isPrefixOf_iff_prefix, Bool.not_eq_true]
      rwa [Bool.not_eq_true'] at hsubscription
    · rw [← isPrefixOf_iff_prefix, Bool.not_eq_true]
      rwa [Bool.not_eq_true'] at hslash
  rcases of_decide_eq_true hbelongs with h | h | h | h
  · exact hgone.1 h
  · exact hgone.2.1 h
  · exact hgone.2.2.1 h
  · exact hgone.2.2.2 h

end

/-! ### Operations of one client -/

/-- What a node does for one client ID leaves everything else as it is. A session that is there afterwards
was there before, with its pointer and its principal, or it is new. -/
structure Within (clientID : String) (l l' : Local μ) : Prop where
  sessions : ∀ other, other ≠ clientID → l'.node.sessions other = l.node.sessions other
  stored : ∀ other, other ≠ clientID → Clean other →
    storedFor other l'.node.db = storedFor other l.node.db
  routes : ∀ other, other ≠ clientID → l'.routes other = l.routes other
  creating : l'.node.creating = l.node.creating
  claims : l'.node.claims = l.node.claims
  nextPointer : l.node.nextPointer ≤ l'.node.nextPointer
  session : ∀ s', l'.node.sessions clientID = some s' →
    (∃ s, l.node.sessions clientID = some s ∧ s.pointer = s'.pointer ∧ s.externalID = s'.externalID) ∨
      l.node.nextPointer ≤ s'.pointer ∧ s'.pointer < l'.node.nextPointer

/-- The node does it for a principal that all it has for the client ID is of, and this stays so. -/
structure Serves (clientID y : String) (l l' : Local μ) : Prop extends Within clientID l l' where
  owned : l.node.OwnedBy clientID y → l'.node.OwnedBy clientID y
  /-- Only its own subscriptions are added to the routing table. -/
  added : ∀ sub ∈ l'.routes clientID, sub ∈ l.routes clientID ∨ sub.2.principal = y

section

variable {l l' l'' : Local μ} {clientID y : String} {s s' : Session μ} {f : Faults}

lemma Within.refl : Within clientID l l where
  sessions _ _ := rfl
  stored _ _ _ := rfl
  routes _ _ := rfl
  creating := rfl
  claims := rfl
  nextPointer := le_rfl
  session s' hs' := .inl ⟨s', hs', rfl, rfl⟩

lemma Within.trans (h : Within clientID l l') (h' : Within clientID l' l'') : Within clientID l l'' where
  sessions other hother := (h'.sessions other hother).trans (h.sessions other hother)
  stored other hother hclean := (h'.stored other hother hclean).trans (h.stored other hother hclean)
  routes other hother := (h'.routes other hother).trans (h.routes other hother)
  creating := h'.creating.trans h.creating
  claims := h'.claims.trans h.claims
  nextPointer := Nat.le_trans h.nextPointer h'.nextPointer
  session := by
    intro s'' hs''
    rcases h'.session s'' hs'' with ⟨s', hs', hpointer, hprincipal⟩ | ⟨hge, hlt⟩
    · rcases h.session s' hs' with ⟨s, hs, hpointer', hprincipal'⟩ | ⟨hge, hlt⟩
      · exact .inl ⟨s, hs, hpointer'.trans hpointer, hprincipal'.trans hprincipal⟩
      · exact .inr ⟨hpointer ▸ hge, hpointer ▸ Nat.lt_of_lt_of_le hlt h'.nextPointer⟩
    · exact .inr ⟨Nat.le_trans h.nextPointer hge, hlt⟩

lemma Serves.refl : Serves clientID y l l where
  toWithin := .refl
  owned := id
  added _ hsub := .inl hsub

lemma Serves.trans (h : Serves clientID y l l') (h' : Serves clientID y l' l'') :
    Serves clientID y l l'' where
  toWithin := h.toWithin.trans h'.toWithin
  owned := h'.owned ∘ h.owned
  added sub hsub := (h'.added sub hsub).elim (h.added sub) .inr

variable {ops : List (Operation (Stored μ))}

lemma within_perform (hc : Clean clientID) : Within clientID l (l.perform clientID ops) :=
  { Within.refl with
    stored := fun _ hother hclean => storedFor_perform_of_ne (Ne.symm hother) hc hclean }

lemma serves_perform (hc : Clean clientID)
    (hops : ∀ op ∈ ops, Puts clientID y op) : Serves clientID y l (l.perform clientID ops) where
  toWithin := within_perform hc
  owned h := ⟨h.session, storedBy_perform h.stored hops⟩
  added _ hsub := .inl hsub

lemma serves_performOne {op : Operation (Stored μ)} (hc : Clean clientID) (hop : Puts clientID y op) :
    Serves clientID y l (l.perform clientID [op]) :=
  serves_perform hc fun _ hmem => mem_singleton.1 hmem ▸ hop

lemma serves_setRoutes {routes : List (String × Item μ)}
    (hroutes : ∀ sub ∈ routes, sub ∈ l.routes clientID ∨ sub.2.principal = y) :
    Serves clientID y l (l.setRoutes clientID routes) where
  toWithin := { Within.refl with routes := fun _ hother => update_of_ne hother _ _ }
  owned h := ⟨h.session, h.stored⟩
  added sub hsub := by
    have hself : (l.setRoutes clientID routes).routes clientID = routes := update_self ..
    exact hroutes sub (hself ▸ hsub)

lemma sessions_setSession {o : Option (Session μ)} : (l.setSession clientID o).node.sessions clientID = o :=
  update_self ..

lemma serves_setNone : Serves clientID y l (l.setSession clientID none) where
  toWithin :=
    { Within.refl with
      sessions := fun _ hother => update_of_ne hother _ _
      session := by
        intro s' hs'
        rw [sessions_setSession] at hs'
        cases hs' }
  owned h := by
    refine ⟨fun s hs => ?_, h.stored⟩
    rw [sessions_setSession] at hs
    cases hs
  added _ hsub := .inl hsub

/-- A session is replaced by one with the same pointer and principal. -/
lemma serves_setSession (hs : l.node.sessions clientID = some s) (hpointer : s.pointer = s'.pointer)
    (hprincipal : s.externalID = s'.externalID) (hsound : s.Sound → s'.Sound) :
    Serves clientID y l (l.setSession clientID (some s')) where
  toWithin :=
    { Within.refl with
      sessions := fun _ hother => update_of_ne hother _ _
      session := by
        intro s'' hs''
        rw [sessions_setSession] at hs''
        cases hs''
        exact .inl ⟨s, hs, hpointer, hprincipal⟩ }
  owned h := by
    refine ⟨fun s'' hs'' => ?_, h.stored⟩
    rw [sessions_setSession] at hs''
    cases hs''
    obtain ⟨hs, rfl⟩ := h.session s hs
    exact ⟨hsound hs, hprincipal.symm⟩
  added _ hsub := .inl hsub

/-- A session that carries less is as sound. -/
lemma Session.Sound.of_items (h : s.Sound) (hprincipal : s.externalID = s'.externalID)
    (hconnection : ∀ y, s'.connection = some y → y = s'.externalID)
    (hitems : ∀ item ∈ s'.contents.items, item ∈ s.contents.items) : s'.Sound where
  bound := hprincipal ▸ h.bound
  connection := hconnection
  items item hitem := hprincipal ▸ h.items item (hitems item hitem)

lemma serves_dropSession : Serves clientID y l (l.dropSession clientID f) := by
  rw [dropSession]
  split
  · exact serves_setNone
  · exact serves_setNone.trans (serves_setRoutes nofun)

lemma serves_deleteDurable (hc : Clean clientID) (call : Call) :
    Serves clientID y l (l.deleteDurable clientID call f).1 := by
  rw [deleteDurable]
  split
  · exact serves_performOne hc deletes_durable.puts
  · exact serves_performOne hc deletes_durable.puts

/-- A session without a connection. -/
lemma Session.Sound.disconnected (h : s.Sound) : ({ s with connection := none } : Session μ).Sound :=
  h.of_items rfl nofun fun _ hitem => hitem

lemma serves_destroySession {t : Session μ} (hc : Clean clientID) (hs : l.node.sessions clientID = some s)
    (hpointer : s.pointer = t.pointer) (hprincipal : s.externalID = t.externalID)
    (hsound : s.Sound → t.Sound) : Serves clientID y l (l.destroySession clientID t f).1 := by
  have hset : Serves clientID y l (l.setSession clientID (some { t with connection := none })) :=
    serves_setSession hs hpointer hprincipal fun h => (hsound h).disconnected
  have hdeleted := hset.trans (serves_deleteDurable (f := f) hc .destroy)
  rw [destroySession]
  cases hresult : (l.setSession clientID (some { t with connection := none })).deleteDurable clientID
      .destroy f with
  | mk l' ok =>
    rw [hresult] at hdeleted
    cases ok with
    | false => exact hdeleted
    | true => exact hdeleted.trans serves_dropSession

/-- After a session has been destroyed there is none. -/
lemma sessions_destroySession (l : Local μ) (clientID : String) (s : Session μ) (f : Faults)
    (h : (l.destroySession clientID s f).2 = true) :
    (l.destroySession clientID s f).1.node.sessions clientID = none := by
  rw [destroySession] at h ⊢
  cases hresult : (l.setSession clientID (some { s with connection := none })).deleteDurable clientID
      .destroy f with
  | mk l' ok =>
    rw [hresult] at h
    cases ok with
    | false => cases h
    | true =>
      simp only [dropSession]
      split
      · exact sessions_setSession
      · exact sessions_setSession

/-- `DetachForTakeover` takes things away only. -/
lemma Session.Sound.detached (h : s.Sound) : s.detachForTakeover.Sound :=
  h.of_items rfl nofun fun item hitem => by
    simp only [Contents.items, Session.detachForTakeover, Option.toList_none, append_nil] at hitem ⊢
    exact mem_append_left _ hitem

/-- A session whose queue has been emptied. -/
lemma Session.Sound.drained (h : s.Sound) : ({ s with contents.queue := [] } : Session μ).Sound :=
  h.of_items rfl h.connection fun item hitem => by
    simp only [Contents.items, append_nil, mem_append] at hitem ⊢
    tauto

lemma serves_persistSessionMessages {t : Session μ} (hc : Clean clientID)
    (hs : l.node.sessions clientID = some s) (hpointer : s.pointer = t.pointer)
    (hprincipal : s.externalID = t.externalID) (hsound : s.Sound → t.Sound) (hy : l.node.OwnedBy clientID y) :
    Serves clientID y l (l.persistSessionMessages clientID t) := by
  obtain ⟨hsound', rfl⟩ := hy.session s hs
  have hitems := (hsound hsound').items
  refine Serves.trans (serves_perform hc ?_)
    (serves_setSession (s := s) hs hpointer hprincipal fun h => (hsound h).drained)
  intro op hop
  rcases mem_append.1 hop with hop | hop
  · obtain ⟨⟨item, i⟩, hitem, rfl⟩ := mem_map.1 hop
    refine Puts.of_changes rfl ((hitems item ?_).trans hprincipal.symm)
    have hqueue : item ∈ t.contents.queue := fst_mem_of_mem_zipIdx hitem
    simp [items, hqueue]
  · obtain ⟨⟨direction, packetID, item⟩, hitem, rfl⟩ := mem_map.1 hop
    refine Puts.of_changes rfl ((hitems item ?_).trans hprincipal.symm)
    simp only [items, mem_append, mem_map]
    exact .inl (.inl (.inr ⟨_, hitem, rfl⟩))

end

/-- What is deleted makes no difference to whose the rest is. -/
lemma Node.Coherent.perform {l : Local μ} {clientID : String} {ops : List (Operation (Stored μ))}
    (h : l.node.Coherent clientID) (hops : ∀ op ∈ ops, Deletes op) :
    (l.perform clientID ops).node.Coherent clientID := by
  rcases h with ⟨y, hy, howned⟩ | hunheld
  · exact .inl ⟨y, hy, howned.session, storedBy_perform howned.stored fun op hop => (hops op hop).puts⟩
  refine .inr fun x hx => hunheld x ?_
  rcases hx with hsession | ⟨hnone, interval, hmem⟩
  · exact .inl hsession
  obtain ⟨hmem, hbelongs⟩ := mem_restrict.1 hmem
  rcases mem_perform hmem with hmem | ⟨op, hop, hput⟩
  · exact .inr ⟨hnone, interval, mem_restrict.2 ⟨hmem, hbelongs⟩⟩
  · exact absurd hput (hops op hop _ _ _)

/-! ### A session that is there -/

section

variable {l : Local μ} {clientID y : String} {s : Session μ} {f : Faults}

lemma serves_loseConnection : Serves clientID y l (l.loseConnection clientID) := by
  rw [loseConnection]
  split
  · exact .refl
  · rename_i s hs
    exact serves_setSession hs rfl rfl Session.Sound.disconnected

lemma serves_enqueue {content : μ} : Serves clientID y l (l.enqueue clientID content) := by
  rw [Local.enqueue]
  split
  · exact .refl
  rename_i s hs
  refine serves_setSession hs rfl rfl fun h => ?_
  obtain ⟨hsubs, hinflight, hqueue, hwill⟩ := forall_items.1 h.items
  refine ⟨h.bound, h.connection, forall_items.2 ⟨hsubs, hinflight, fun item hitem => ?_, hwill⟩⟩
  rcases mem_append.1 hitem with hitem | hitem
  · exact hqueue item hitem
  · cases mem_singleton.1 hitem
    rfl

lemma serves_send {packetID : Nat} {content : μ} :
    Serves clientID y l (l.send clientID packetID content) := by
  rw [send]
  split
  · exact .refl
  rename_i s hs
  refine serves_setSession hs rfl rfl fun h => ?_
  obtain ⟨hsubs, hinflight, hqueue, hwill⟩ := forall_items.1 h.items
  refine ⟨h.bound, h.connection, forall_items.2 ⟨hsubs, fun e he => ?_, hqueue, hwill⟩⟩
  rcases mem_append.1 he with he | he
  · exact hinflight e he
  · cases mem_singleton.1 he
    rfl

lemma serves_subscribe {filter : String} {content : μ} (hc : Clean clientID)
    (hy : l.node.OwnedBy clientID y) : Serves clientID y l (l.subscribe clientID filter content) := by
  rw [subscribe]
  split
  · exact .refl
  rename_i s hs
  obtain ⟨-, rfl⟩ := hy.session s hs
  refine Serves.trans (serves_performOne hc (Puts.of_changes rfl ?_))
    (Serves.trans (serves_setRoutes ?_) (serves_setSession hs rfl rfl fun h =>
      ⟨h.bound, h.connection, fun item hitem => ?_⟩))
  · rfl
  · intro sub hsub
    rcases mem_cons.1 hsub with rfl | hsub
    · exact .inr rfl
    · exact .inl hsub
  simp only [items, map_cons, cons_append, mem_cons] at hitem
  rcases hitem with rfl | hitem
  · rfl
  · exact h.items item hitem

lemma serves_expireSession (hc : Clean clientID) :
    Serves clientID y l (l.expireSession clientID f) := by
  rw [expireSession]
  split
  · exact .refl
  rename_i s hs
  split
  · exact .refl
  · exact serves_destroySession hc hs rfl rfl id

/-- A session without its Will. -/
lemma Session.Sound.withoutWill (h : s.Sound) : ({ s with contents.will := none } : Session μ).Sound :=
  h.of_items rfl h.connection fun item hitem => by
    simp only [Contents.items, Option.toList_none, append_nil] at hitem ⊢
    exact mem_append_left _ hitem

lemma serves_saveSession (hc : Clean clientID) (hs : s.externalID = y) :
    Serves clientID y l (l.saveSession clientID s) :=
  serves_performOne hc (hs ▸ Puts.of_changes rfl rfl)

variable {discardsWill delayed : Bool}

lemma serves_settleWill (hc : Clean clientID) (hs : s.Sound) :
    Serves clientID s.externalID l (l.settleWill clientID s discardsWill delayed) := by
  rw [settleWill]
  split
  · exact serves_performOne hc deletes_will.puts
  split
  · rename_i will hwill
    split
    · refine serves_performOne hc (Puts.of_changes rfl ?_)
      exact hs.items will (by simp [items, hwill])
    · exact .refl
  · exact .refl

lemma sessions_settleWill :
    (l.settleWill clientID s discardsWill delayed).node.sessions = l.node.sessions := by
  rw [settleWill]
  split
  · rfl
  split
  · split <;> rfl
  · rfl

lemma serves_handleDisconnect {pointer epoch : Nat} (hc : Clean clientID)
    (hy : l.node.OwnedBy clientID y) :
    Serves clientID y l (l.handleDisconnect clientID pointer epoch discardsWill delayed f) := by
  rw [handleDisconnect]
  split
  · exact .refl
  rename_i s hs
  split
  · exact .refl
  obtain ⟨hsound, rfl⟩ := hy.session s hs
  have hstored : Serves clientID s.externalID l
      ((l.saveSession clientID s).settleWill clientID s discardsWill delayed) :=
    (serves_saveSession hc rfl).trans (serves_settleWill hc hsound)
  have hs₁ : ((l.saveSession clientID s).settleWill clientID s discardsWill delayed).node.sessions
      clientID = some s := by
    rw [sessions_settleWill]
    exact hs
  have hpersisted := hstored.trans (serves_persistSessionMessages
    (t := { s with contents.will := none }) hc hs₁ rfl rfl Session.Sound.withoutWill
    (hstored.owned hy))
  dsimp only
  split
  · exact hpersisted.trans (serves_destroySession hc sessions_setSession rfl rfl id)
  · exact hpersisted

/-- A claim that is still good is for the principal of its session. -/
lemma serves_attachSession {claim : Claim μ} (hc : Clean claim.clientID)
    (hy : l.node.OwnedBy claim.clientID y)
    (hclaim : ∀ s, l.node.sessions claim.clientID = some s → s.pointer = claim.pointer →
      s.externalID = claim.options.externalID) :
    Serves claim.clientID y l (l.attachSession claim f) := by
  rw [attachSession]
  split
  · exact .refl
  rename_i s hs
  split
  · exact .refl
  rename_i hgood
  have hpointer : s.pointer = claim.pointer := by
    by_contra hne
    exact hgood (.inl hne)
  obtain ⟨hsound, rfl⟩ := hy.session s hs
  split
  · split
    · exact (serves_persistSessionMessages hc hs rfl rfl id hy).trans serves_dropSession
    · exact .refl
  have hcancelled : Serves claim.clientID s.externalID l
      (if claim.continuesSession then l.perform claim.clientID [.deleteWill] else l) := by
    split
    · exact serves_performOne hc deletes_will.puts
    · exact .refl
  have hs₁ : (if claim.continuesSession then l.perform claim.clientID [.deleteWill] else l).node.sessions
      claim.clientID = some s := by
    split <;> exact hs
  refine hcancelled.trans (Serves.trans ?_ (serves_saveSession hc rfl))
  refine serves_setSession hs₁ rfl rfl fun h => ?_
  -- The new connection and its Will are of the principal that the claim is for.
  have hprincipal := hclaim s hs hpointer
  obtain ⟨hsubs, hinflight, hqueue, -⟩ := forall_items.1 h.items
  refine ⟨h.bound, fun y hy => (Option.some.inj hy).symm.trans hprincipal.symm,
    forall_items.2 ⟨hsubs, hinflight, hqueue, fun item hitem => ?_⟩⟩
  obtain ⟨will, -, rfl⟩ := Option.map_eq_some_iff.1 hitem
  exact hprincipal.symm

/-! ### A session that is handed over -/

lemma serves_getSessionStateAndClose {identity : Option String} (hc : Clean clientID) :
    Serves clientID y l (l.getSessionStateAndClose clientID identity f).1 := by
  rw [getSessionStateAndClose]
  split
  · exact .refl
  rename_i s hs
  split
  · exact .refl
  split
  · exact serves_setSession hs rfl rfl Session.Sound.drained
  have hdestroyed : Serves clientID y l
      (l.destroySession clientID
        ({ s with contents.queue := [] } : Session μ).detachForTakeover f).1 :=
    serves_destroySession hc hs rfl rfl fun h => h.drained.detached
  dsimp only at hdestroyed ⊢
  split
  · rename_i heq
    rwa [heq] at hdestroyed
  · rename_i heq
    rwa [heq] at hdestroyed

/-- What is handed over is of the principal that it is taken from. -/
lemma captured_of_ownedBy {identity : Option String} {t : Captured μ} (hy : l.node.OwnedBy clientID y)
    (h : (l.getSessionStateAndClose clientID identity f).2 = some (some t)) :
    t.externalID = y ∧ (∀ item ∈ t.contents.items, item.principal = y) ∧
      ∀ externalID, identity = some externalID → identityAllows y externalID false = true := by
  rw [getSessionStateAndClose] at h
  split at h
  · cases h
  rename_i s hs
  split at h
  · cases h
  rename_i hidentity
  split at h
  · cases h
  obtain ⟨hsound, rfl⟩ := hy.session s hs
  dsimp only at h
  split at h
  · cases h
  cases h
  refine ⟨rfl, ?_, ?_⟩
  · obtain ⟨-, hinflight, hqueue, hwill⟩ := forall_items.1 hsound.items
    refine forall_items.2 ⟨fun sub hsub => principal_of_storedSubscriptions hy.stored hsub, hinflight,
      hqueue, fun item hitem => ?_⟩
    cases hs : s.contents.will with
    | some will =>
      rw [hs] at hitem
      exact hwill item (hs.trans hitem)
    | none =>
      rw [hs] at hitem
      exact principal_of_storedWill hy.stored hitem
  · intro externalID hexternal
    rw [hexternal] at hidentity
    simpa using hidentity

/-- The session of another principal is not handed over. -/
lemma getSessionStateAndClose_of_ne {x : String} (hx : l.node.OwnedBy clientID x)
    (hs : l.node.sessions clientID = some s) (hy : y ≠ "") (hne : x ≠ y) :
    l.getSessionStateAndClose clientID (some y) f = (l, none) := by
  obtain ⟨hsound, rfl⟩ := hx.session s hs
  have hrefused : identityAllows s.externalID y false = false := by
    rw [← Bool.not_eq_true, identityAllows_iff hsound.bound hy]
    exact hne
  rw [getSessionStateAndClose, hs]
  simp [hrefused]

end

/-! ### A new session -/

section

variable {l l' : Local μ} {clientID y : String} {f : Faults} {o : Options μ} {clustered : Bool}
  {r : Restore μ}

/-- The CONNECT inherits nothing but what is of its principal. -/
structure Restore.IsFor (r : Restore μ) (y : String) : Prop where
  externalID : r.externalID = y
  preserveForOwner : r.preserveForOwner = false
  takeover : ∀ t, r.takeover = some t → ∀ item ∈ t.contents.items, item.principal = y

lemma serves_addSubscriptions {subs : List (String × Item μ)} (hc : Clean clientID)
    (hsubs : ∀ sub ∈ subs, sub.2.principal = y) :
    Serves clientID y l (l.perform clientID (subs.map fun sub =>
      Operation.addSubscription sub.1 (Stored.subscription sub.1 sub.2))) := by
  refine serves_perform hc fun op hop => ?_
  obtain ⟨sub, hsub, rfl⟩ := mem_map.1 hop
  exact Puts.of_changes rfl (hsubs sub hsub)

/-- What a new session begins with is of the principal. -/
lemma restoreContents_spec (hc : Clean clientID) (hy : l.node.OwnedBy clientID y) (hr : r.IsFor y)
    (hroutes : r.takeover = none → r.localState = true → clustered = true →
      ∀ sub ∈ l.routes clientID, sub.2.principal = y) :
    Serves clientID y l (l.restoreContents clientID clustered r f).1 ∧
      ∀ contents, (l.restoreContents clientID clustered r f).2 = some contents →
        ∀ item ∈ contents.items, item.principal = y := by
  rw [restoreContents]
  split
  · rename_i t ht
    have hitems := forall_items.1 (hr.takeover t ht)
    have hadded (subs : List (String × Item μ)) (hsubs : ∀ sub ∈ subs, sub.2.principal = y) :
        ∀ sub ∈ subs ++ l.routes clientID, sub ∈ l.routes clientID ∨ sub.2.principal = y := by
      intro sub hsub
      exact (mem_append.1 hsub).elim (fun h => .inr (hsubs sub h)) .inl
    split
    · refine ⟨(serves_addSubscriptions hc fun sub hsub => ?_).trans
        (serves_setRoutes (hadded _ fun sub hsub => ?_)), nofun⟩
      · exact hitems.1 sub (mem_of_mem_take hsub)
      · exact hitems.1 sub (mem_of_mem_take hsub)
    · refine ⟨(serves_addSubscriptions hc hitems.1).trans (serves_setRoutes (hadded _ hitems.1)), ?_⟩
      intro contents h
      cases h
      exact forall_items.2 ⟨hitems.1, hitems.2.1, hitems.2.2.1, nofun⟩
  rename_i htakeover
  split
  · refine ⟨.refl, ?_⟩
    intro contents h
    cases h
    intro item hitem
    cases hitem
  rename_i hlocal
  split
  · exact ⟨.refl, nofun⟩
  -- The messages in flight are taken from the store, then those that are queued.
  have hinflight : Serves clientID y l (l.perform clientID [.deleteInflight]) :=
    serves_performOne hc deletes_inflight.puts
  split
  · exact ⟨hinflight, nofun⟩
  have hqueue : Serves clientID y l ((l.perform clientID [.deleteInflight]).perform clientID
      [.deleteQueued]) :=
    hinflight.trans (serves_performOne hc deletes_queued.puts)
  split
  · exact ⟨hqueue, nofun⟩
  have hsubs : ∀ sub ∈ (if clustered then l.routes clientID else
      ((l.perform clientID [.deleteInflight]).perform clientID [.deleteQueued]).storedSubscriptions
        clientID), sub.2.principal = y := by
    split
    · exact hroutes htakeover (by simpa using hlocal) ‹_›
    · exact fun sub hsub => principal_of_storedSubscriptions (hqueue.owned hy).stored hsub
  refine ⟨hqueue.trans (serves_addSubscriptions hc hsubs), ?_⟩
  intro contents h
  cases h
  exact forall_items.2 ⟨hsubs, fun e he => principal_of_storedInflight hy.stored he,
    fun item hitem => principal_of_storedQueue (hinflight.owned hy).stored hitem, nofun⟩

lemma preserveWill_eq {takeoverWill : Option (Item μ)} (hr : r.preserveForOwner = false) :
    l.preserveWill clientID r takeoverWill f = (l, true) := by
  cases takeoverWill with
  | none => rfl
  | some will => simp [preserveWill, hr]

/-- What is known of the result of a CONNECT that is not refused. -/
structure Established (clientID y : String) (o : Options μ) (l : Local μ)
    (result : Local μ × Option (Claim μ)) : Prop extends Within clientID l result.1 where
  coherent : result.1.node.Coherent clientID
  claim : ∀ claim, result.2 = some claim → claim.clientID = clientID ∧ claim.options = o ∧
    claim.pointer < result.1.node.nextPointer ∧ result.1.node.OwnedBy clientID y
  added : ∀ sub ∈ result.1.routes clientID, sub ∈ l.routes clientID ∨ sub.2.principal = y

lemma Established.failed (hw : Within clientID l l') (hcoherent : l'.node.Coherent clientID)
    (hadded : ∀ sub ∈ l'.routes clientID, sub ∈ l.routes clientID ∨ sub.2.principal = y) :
    Established clientID y o l (l', none) where
  toWithin := hw
  coherent := hcoherent
  claim _ h := by cases h
  added := hadded

lemma Established.of_serves (h : Serves clientID y l l') (hy : y ≠ "")
    (howned : l.node.OwnedBy clientID y) : Established clientID y o l (l', none) :=
  .failed h.toWithin (.inl ⟨y, hy, h.owned howned⟩) h.added

lemma Established.of_within {result : Local μ × Option (Claim μ)} (hw : Within clientID l l')
    (hadded : ∀ sub ∈ l'.routes clientID, sub ∈ l.routes clientID ∨ sub.2.principal = y)
    (h : Established clientID y o l' result) : Established clientID y o l result where
  toWithin := hw.trans h.toWithin
  __ := h
  added sub hsub := (h.added sub hsub).elim (hadded sub) .inr

/-- A new session is registered under a new pointer. -/
lemma established_register {s : Session μ} {claim : Claim μ} (hc : Clean clientID)
    (hy : l.node.StoredBy clientID y) (hpointer : s.pointer = l.node.nextPointer) (hsound : s.Sound)
    (hs : s.externalID = y) (hclaim : claim.clientID = clientID ∧ claim.options = o ∧
      claim.pointer = l.node.nextPointer) :
    Established clientID y o l
      ({ (l.saveSession clientID s).setSession clientID (some s) with
        node.nextPointer := l.node.nextPointer + 1 }, some claim) := by
  have hsaved : Serves clientID y l (l.saveSession clientID s) := serves_saveSession hc hs
  have howned : ((l.saveSession clientID s).setSession clientID (some s)).node.OwnedBy clientID y := by
    refine ⟨fun s' hs' => ?_, storedBy_perform hy ?_⟩
    · rw [sessions_setSession] at hs'
      cases hs'
      exact ⟨hsound, hs⟩
    · exact fun op hop => mem_singleton.1 hop ▸ hs ▸ Puts.of_changes rfl rfl
  refine ⟨⟨fun other hother => ?_, hsaved.stored, fun _ _ => rfl, rfl, rfl, Nat.le_succ _, ?_⟩, ?_, ?_,
    fun _ hsub => .inl hsub⟩
  · exact update_of_ne hother _ _
  · intro s' hs'
    rw [show ({ (l.saveSession clientID s).setSession clientID (some s) with
      node.nextPointer := l.node.nextPointer + 1 } : Local μ).node.sessions clientID = some s from
        sessions_setSession] at hs'
    cases hs'
    exact .inr ⟨Nat.le_of_eq hpointer.symm, hpointer ▸ Nat.lt_succ_self _⟩
  · exact .inl ⟨y, hs ▸ hsound.bound, howned.session, howned.stored⟩
  · intro claim' h
    cases h
    exact ⟨hclaim.1, hclaim.2.1, hclaim.2.2 ▸ Nat.lt_succ_self _, howned.session, howned.stored⟩

/-- The session that is made is of the principal, and so is its record. -/
lemma establish_spec {takeoverWill : Option (Item μ)} (hc : Clean clientID)
    (hbound : o.externalID ≠ "") (hy : l.node.OwnedBy clientID o.externalID)
    (hr : r.IsFor o.externalID)
    (hroutes : r.takeover = none → r.localState = true → clustered = true →
      ∀ sub ∈ l.routes clientID, sub.2.principal = o.externalID) :
    Established clientID o.externalID o l (l.establish clientID clustered o r takeoverWill f) := by
  obtain ⟨hrestored, hitems⟩ := restoreContents_spec (f := f) hc hy hr hroutes
  rw [establish, preserveWill_eq hr.preserveForOwner]
  dsimp only
  cases hresult : l.restoreContents clientID clustered r f with
  | mk l₁ contents =>
    rw [hresult] at hrestored hitems
    have howned := hrestored.owned hy
    cases contents with
    | none => exact .of_serves hrestored hbound hy
    | some contents =>
      dsimp only
      split
      · exact .of_serves hrestored hbound hy
      rw [hr.preserveForOwner, hr.externalID]
      refine .of_within hrestored.toWithin hrestored.added
        (established_register hc howned.stored rfl ⟨hbound, (nomatch ·, ·), ?_⟩ rfl ⟨rfl, rfl, rfl⟩)
      have hcontents := forall_items.1 (hitems contents rfl)
      refine forall_items.2 ⟨hcontents.1, hcontents.2.1, hcontents.2.2.1, fun item hitem => ?_⟩
      obtain ⟨will, -, rfl⟩ := Option.map_eq_some_iff.1 hitem
      rfl

/-- What is left of a session that has ended is taken away before anything is restored. -/
lemma claimOrphaned_spec (hc : Clean clientID) (hs : l.node.sessions clientID = none)
    (hcoherent : l.node.Coherent clientID) :
    Within clientID l (l.claimOrphanedSessionState clientID f).1 ∧
      (l.claimOrphanedSessionState clientID f).1.node.Coherent clientID ∧
      (∀ sub ∈ (l.claimOrphanedSessionState clientID f).1.routes clientID, sub ∈ l.routes clientID) ∧
      ((l.claimOrphanedSessionState clientID f).2 = true →
        (l.claimOrphanedSessionState clientID f).1.node.OwnedBy clientID y ∧
          (l.claimOrphanedSessionState clientID f).1.routes clientID = []) := by
  have hroutes : Within clientID l (l.setRoutes clientID []) :=
    (serves_setRoutes (y := y) fun sub hsub => by cases hsub).toWithin
  rw [claimOrphanedSessionState]
  split
  · exact ⟨.refl, hcoherent, fun _ hsub => hsub, nofun⟩
  have hempty : (l.setRoutes clientID []).routes clientID = [] := update_self ..
  split
  · refine ⟨hroutes, hcoherent, fun sub hsub => ?_, nofun⟩
    rw [hempty] at hsub
    cases hsub
  have hdeleted : Within clientID l ((l.setRoutes clientID []).deleteDurable clientID .claimOrphaned f).1 :=
    hroutes.trans (serves_deleteDurable (y := y) hc _).toWithin
  have hempty' : ((l.setRoutes clientID []).deleteDurable clientID .claimOrphaned f).1.routes clientID =
      [] := by
    rw [deleteDurable]
    split <;> exact hempty
  refine ⟨hdeleted, ?_, fun sub hsub => ?_, ?_⟩
  · have hcoherent' : (l.setRoutes clientID []).node.Coherent clientID := hcoherent
    rw [deleteDurable]
    split
    · exact hcoherent'.perform fun op hop => mem_singleton.1 hop ▸ deletes_durable
    · exact hcoherent'.perform fun op hop => mem_singleton.1 hop ▸ deletes_durable
  · rw [hempty'] at hsub
    cases hsub
  intro hok
  rw [deleteDurable] at hok ⊢
  split at hok
  · cases hok
  rename_i hfails
  rw [if_neg hfails]
  refine ⟨⟨fun s hsome => ?_, fun entry hentry => ?_⟩, update_self ..⟩
  · rw [show ((l.setRoutes clientID []).perform clientID
      [.deleteDurableSessionState 4]).node.sessions clientID = none from hs] at hsome
    cases hsome
  · rw [storedFor_deleteDurable] at hentry
    cases hentry

section

variable {takeoverState : Option (Captured μ)}

/-- Once a session of another principal is there, the CONNECT is refused and nothing is changed. -/
lemma createSession_of_ne {x : String} (hbound : o.externalID ≠ "")
    (hcoherent : l.node.Coherent clientID) (hx : l.node.Holds clientID x) (hne : x ≠ o.externalID)
    (hclean : o.cleanStart = false)
    (htakeover : takeoverState ≠ none → l.node.StoredBy clientID o.externalID) :
    l.createSession clientID clustered o takeoverState f = (l, none) := by
  obtain ⟨hx', howned⟩ := hcoherent.ownedBy hx
  have hrefused : identityAllows x o.externalID o.requireBound = false := by
    rw [← Bool.not_eq_true, identityAllows_iff hx' hbound]
    exact hne
  rw [createSession]
  rcases hx with ⟨s, hs, rfl⟩ | ⟨hs, interval, hmem⟩
  · rw [hs]
    simp [hclean, hx', hrefused]
  have htake : takeoverState = none := by
    by_contra hsome
    exact hne (htakeover hsome _ hmem)
  obtain ⟨stored, hrecord⟩ := Option.isSome_iff_exists.1 (record_isSome hmem)
  have hprincipal : stored.1 = x := howned.stored _ (mem_of_record hrecord)
  rw [hs]
  rw [createFresh, resolveSessionRestore, htake]
  simp [hclean, hrecord, hprincipal, hx', hrefused]

variable (hbound : o.externalID ≠ "") (hcoherent : l.node.Coherent clientID)
  (hholds : ∀ x, l.node.Holds clientID x → x = o.externalID)
  (htakeover : ∀ t, takeoverState = some t → o.cleanStart = false → t.externalID = o.externalID ∧
    (∀ item ∈ t.contents.items, item.principal = o.externalID) ∧
    l.node.StoredBy clientID o.externalID)
include hbound hcoherent hholds htakeover

/-- What a CONNECT may inherit is of its principal, and then so is all that the node has, unless it
inherits nothing. -/
lemma resolve_spec (hs : l.node.sessions clientID = none)
    (hr : l.resolveSessionRestore clientID o takeoverState f = some r) :
    r.IsFor o.externalID ∧ (r.takeover = none ∧ r.stored = none ∨
      l.node.OwnedBy clientID o.externalID ∧ (r.takeover = none →
        (l.record clientID).isSome = true ∧ o.cleanStart = false ∧ takeoverState = none)) := by
  have hnothing (r : Restore μ) (hexternal : r.externalID = o.externalID)
      (hpreserve : r.preserveForOwner = false) (hnone : r.takeover = none) : r.IsFor o.externalID :=
    ⟨hexternal, hpreserve, fun t ht => by
      rw [hnone] at ht
      cases ht⟩
  rw [resolveSessionRestore] at hr
  split at hr
  · rename_i t ht
    have hclean : o.cleanStart = false := by
      by_contra h
      rw [if_pos (by simpa using h)] at ht
      cases ht
    rw [hclean] at ht
    obtain ⟨hprincipal, hitems, hstored⟩ := htakeover t ht hclean
    have hallowed : identityAllows t.externalID o.externalID o.requireBound = true :=
      (identityAllows_iff (hprincipal ▸ hbound) hbound).2 hprincipal
    rw [if_neg (by simp [hprincipal, hbound]), hallowed] at hr
    cases hr
    refine ⟨⟨by simp [hprincipal, hbound], rfl, ?_⟩, .inr ⟨⟨?_, hstored⟩, ?_⟩⟩
    · intro t' ht'
      cases ht'
      exact hitems
    · intro s hsome
      rw [hs] at hsome
      cases hsome
    · intro hnone
      cases hnone
  · rename_i htake
    split at hr
    · cases hr
      exact ⟨hnothing _ rfl rfl rfl, .inl ⟨rfl, rfl⟩⟩
    rename_i hclean
    rw [if_neg hclean] at htake
    split at hr
    · cases hr
    split at hr
    · cases hr
      exact ⟨hnothing _ rfl rfl rfl, .inl ⟨rfl, rfl⟩⟩
    rename_i stored hrecord
    have hrecord' : l.node.Holds clientID stored.1 := .inr ⟨hs, stored.2, mem_of_record hrecord⟩
    split at hr
    · cases hr
      exact ⟨hnothing _ rfl rfl rfl, .inl ⟨rfl, rfl⟩⟩
    split at hr
    · cases hr
    · cases hr
      refine ⟨hnothing _ rfl rfl rfl, .inr ⟨hholds _ hrecord' ▸ (hcoherent.ownedBy hrecord').2, fun _ => ?_⟩⟩
      exact ⟨by rw [hrecord]; rfl, by simpa using hclean, htake⟩

lemma createFresh_spec (hc : Clean clientID) (hs : l.node.sessions clientID = none)
    (hroutes : (l.record clientID).isSome = true → o.cleanStart = false → takeoverState = none →
      clustered = true → ∀ sub ∈ l.routes clientID, sub.2.principal = o.externalID) :
    Established clientID o.externalID o l (l.createFresh clientID clustered o takeoverState f) := by
  have hfailed : Established clientID o.externalID o l (l, none) :=
    .failed .refl hcoherent fun _ hsub => .inl hsub
  rw [createFresh]
  split
  · exact hfailed
  split
  · exact hfailed
  rename_i r hr
  obtain ⟨hfor, hinherits⟩ := resolve_spec hbound hcoherent hholds htakeover hs hr
  split
  · exact hfailed
  split
  · -- Nothing is inherited, so that what is left is taken away first.
    rename_i hnothing
    obtain ⟨hwithin, hcoherent', hkept, hok⟩ :=
      claimOrphaned_spec (f := f) (y := o.externalID) hc hs hcoherent
    cases hclaimed : l.claimOrphanedSessionState clientID f with
    | mk l₁ ok =>
      rw [hclaimed] at hwithin hcoherent' hkept hok
      cases ok with
      | false => exact .failed hwithin hcoherent' fun sub hsub => .inl (hkept sub hsub)
      | true =>
        obtain ⟨howned, hempty⟩ := hok rfl
        refine .of_within hwithin (fun sub hsub => .inl (hkept sub hsub))
          (establish_spec hc hbound howned hfor fun _ _ _ sub hsub => ?_)
        rw [hempty] at hsub
        cases hsub
  · rename_i hsomething
    rcases hinherits with hnothing | ⟨howned, hlocal⟩
    · exact absurd (by simp [hnothing.1, hnothing.2]) hsomething
    · refine establish_spec hc hbound howned hfor fun hnone _ hclustered => ?_
      obtain ⟨hrecord, hclean, htake⟩ := hlocal hnone
      exact hroutes hrecord hclean htake hclustered

/-- A CONNECT that meets no session of another principal gets one that is its own, or none. -/
lemma createSession_spec (hc : Clean clientID)
    (hpointer : ∀ s, l.node.sessions clientID = some s → s.pointer < l.node.nextPointer)
    (hroutes : l.node.sessions clientID = none → (l.record clientID).isSome = true →
      o.cleanStart = false → takeoverState = none → clustered = true →
      ∀ sub ∈ l.routes clientID, sub.2.principal = o.externalID) :
    Established clientID o.externalID o l (l.createSession clientID clustered o takeoverState f) := by
  rw [createSession]
  split
  · rename_i hs
    exact createFresh_spec hbound hcoherent hholds htakeover hc hs (hroutes hs)
  rename_i s hs
  have hx : l.node.Holds clientID s.externalID := .inl ⟨s, hs, rfl⟩
  have hprincipal := hholds _ hx
  obtain ⟨-, howned⟩ := hcoherent.ownedBy hx
  rw [hprincipal] at howned
  split
  · -- Clean Start: the session that is destroyed is the principal's own.
    rename_i hclean
    have hdetached : Serves clientID o.externalID l
        (l.setSession clientID (some s.detachForTakeover)) :=
      serves_setSession hs rfl rfl Session.Sound.detached
    dsimp only
    split
    · exact .of_serves hdetached hbound howned
    have hdestroyed := hdetached.trans
      (serves_destroySession (t := s.detachForTakeover) (f := f) hc sessions_setSession rfl rfl id)
    have hended := sessions_destroySession (l.setSession clientID (some s.detachForTakeover)) clientID
      s.detachForTakeover f
    cases hresult : (l.setSession clientID (some s.detachForTakeover)).destroySession clientID
        s.detachForTakeover f with
    | mk l₁ ok =>
      rw [hresult] at hdestroyed hended
      have howned₁ := hdestroyed.owned howned
      cases ok with
      | false => exact .of_serves hdestroyed hbound howned
      | true =>
        refine .of_within hdestroyed.toWithin hdestroyed.added (createFresh_spec hbound
          (.inl ⟨_, hbound, howned₁⟩) (fun x hx => howned₁.eq_of_holds hx) ?_ hc (hended rfl) ?_)
        · intro t _ hnot
          rw [hclean] at hnot
          cases hnot
        · intro _ hnot
          rw [hclean] at hnot
          cases hnot
  split
  · rename_i hunbound
    exact absurd (hprincipal ▸ hunbound.2) hbound
  split
  · exact .failed .refl hcoherent fun _ hsub => .inl hsub
  have hset : Serves clientID o.externalID l
      (l.setSession clientID (some { s with externalID := o.externalID })) := by
    refine serves_setSession hs rfl hprincipal fun h => h.of_items hprincipal ?_ fun _ hitem => hitem
    exact fun y hy => (h.connection y hy).trans hprincipal
  have hcoherent' : (l.setSession clientID (some { s with externalID := o.externalID })).node.Coherent
      clientID := .inl ⟨_, hbound, hset.owned howned⟩
  split
  · exact .of_serves hset hbound howned
  · refine ⟨hset.toWithin, hcoherent', fun claim h => ?_, hset.added⟩
    cases h
    exact ⟨rfl, rfl, hpointer s hs, hset.owned howned⟩

end

end

/-! ### Every node -/

section

variable {n n' : Node μ} {l l' : Local μ} {clientID x y : String}

lemma Node.holds_congr (hs : n'.sessions clientID = n.sessions clientID)
    (hdb : storedFor clientID n'.db = storedFor clientID n.db) :
    n'.Holds clientID x ↔ n.Holds clientID x := by
  rw [Node.Holds, Node.Holds, hs, hdb]

lemma Node.Coherent.congr (h : n.Coherent clientID) (hs : n'.sessions clientID = n.sessions clientID)
    (hdb : storedFor clientID n'.db = storedFor clientID n.db) : n'.Coherent clientID := by
  rcases h with ⟨y, hy, howned⟩ | hunheld
  · refine .inl ⟨y, hy, fun s hsome => howned.session s (hs ▸ hsome), fun entry hentry => ?_⟩
    exact howned.stored entry (hdb ▸ hentry)
  · exact .inr fun x hx => hunheld x ((Node.holds_congr hs hdb).1 hx)

/-- What was handed over to a CONNECT is of its principal. -/
structure Pending.Sound (p : Pending μ) : Prop where
  bound : p.options.externalID ≠ ""
  takeover : ∀ t, p.takeoverState = some t → p.options.cleanStart = false →
    t.externalID = p.options.externalID ∧ ∀ item ∈ t.contents.items, item.principal = p.options.externalID

/-- There is one principal for each client ID, and a claim is for the principal of the session that it
claims. -/
structure Node.Inv (n : Node μ) : Prop where
  coherent : ∀ clientID, Clean clientID → n.Coherent clientID
  session : ∀ clientID s, n.sessions clientID = some s → Clean clientID ∧ s.pointer < n.nextPointer
  creating : ∀ clientID p, n.creating clientID = some p → Clean clientID ∧ p.Sound
  claim : ∀ claim ∈ n.claims, Clean claim.clientID ∧ claim.pointer < n.nextPointer ∧
    ∀ s, n.sessions claim.clientID = some s → s.pointer = claim.pointer →
      s.externalID = claim.options.externalID

/-- An operation for one client ID has to be looked at for that client ID only. -/
lemma Node.Inv.of_within (h : l.node.Inv) (hc : Clean clientID) (hw : Within clientID l l')
    (hcoherent : l'.node.Coherent clientID) : l'.node.Inv where
  coherent other hother := by
    by_cases hne : other = clientID
    · exact hne ▸ hcoherent
    · exact (h.coherent other hother).congr (hw.sessions other hne) (hw.stored other hne hother)
  session other s' hs' := by
    by_cases hne : other = clientID
    · subst hne
      refine ⟨hc, ?_⟩
      rcases hw.session s' hs' with ⟨s, hs, hpointer, -⟩ | ⟨-, hlt⟩
      · exact hpointer ▸ Nat.lt_of_lt_of_le (h.session other s hs).2 hw.nextPointer
      · exact hlt
    · obtain ⟨hother, hlt⟩ := h.session other s' (hw.sessions other hne ▸ hs')
      exact ⟨hother, Nat.lt_of_lt_of_le hlt hw.nextPointer⟩
  creating other p hp := h.creating other p (hw.creating ▸ hp)
  claim claim hclaim := by
    obtain ⟨hclean, hlt, hsession⟩ := h.claim claim (hw.claims ▸ hclaim)
    refine ⟨hclean, Nat.lt_of_lt_of_le hlt hw.nextPointer, fun s' hs' hpointer' => ?_⟩
    by_cases hne : claim.clientID = clientID
    · rw [hne] at hs' hsession
      rcases hw.session s' hs' with ⟨s, hs, hpointer, hprincipal⟩ | ⟨hge, -⟩
      · exact hprincipal ▸ hsession s hs (hpointer.trans hpointer')
      · -- A new session has a pointer that no claim is for.
        omega
    · exact hsession s' (hw.sessions _ hne ▸ hs') hpointer'

/-- An operation that does nothing without a session is for the principal of the session. -/
lemma Node.Inv.of_serves (h : l.node.Inv) (clientID : String)
    (hnone : l.node.sessions clientID = none → l' = l)
    (hserves : ∀ y, Clean clientID → l.node.OwnedBy clientID y → Serves clientID y l l') : l'.node.Inv := by
  cases hs : l.node.sessions clientID with
  | none => exact hnone hs ▸ h
  | some s =>
    have hc := (h.session clientID s hs).1
    obtain ⟨hbound, howned⟩ := (h.coherent clientID hc).ownedBy (.inl ⟨s, hs, rfl⟩)
    have hs' := hserves s.externalID hc howned
    exact h.of_within hc hs'.toWithin (.inl ⟨_, hbound, hs'.owned howned⟩)

/-- What is taken away makes no difference. -/
lemma Node.Inv.of_deletes {ops : List (Operation (Stored μ))} (h : l.node.Inv) (hc : Clean clientID)
    (hops : ∀ op ∈ ops, Deletes op) : (l.perform clientID ops).node.Inv :=
  h.of_within hc (within_perform hc) ((h.coherent clientID hc).perform hops)

/-- A CONNECT takes the lock or gives it back. -/
lemma Node.Inv.setCreating {p : Option (Pending μ)} (h : n.Inv)
    (hp : ∀ q, p = some q → Clean clientID ∧ q.Sound) :
    ({ n with creating := update n.creating clientID p } : Node μ).Inv where
  coherent clientID hc := (h.coherent clientID hc).congr rfl rfl
  __ := h
  creating other q hq := by
    by_cases hne : other = clientID
    · subst hne
      simp only [update_self] at hq
      exact hp q hq
    · simp only [update_of_ne hne] at hq
      exact h.creating other q hq

/-- A CONNECT gets its claim. -/
lemma Node.Inv.addClaim {claim : Option (Claim μ)} (h : n.Inv)
    (hclaim : ∀ c, claim = some c → Clean c.clientID ∧ c.pointer < n.nextPointer ∧
      n.OwnedBy c.clientID c.options.externalID) :
    ({ n with claims := claim.toList ++ n.claims } : Node μ).Inv where
  coherent clientID hc := (h.coherent clientID hc).congr rfl rfl
  __ := h
  claim c hc := by
    rcases mem_append.1 hc with hc | hc
    · obtain ⟨hclean, hlt, howned⟩ := hclaim c (Option.mem_toList.1 hc)
      exact ⟨hclean, hlt, fun s hs _ => (howned.session s hs).2⟩
    · exact h.claim c hc

/-- A node that is started anew has its database and no sessions. -/
lemma Node.Inv.restart (h : n.Inv) : ({ db := n.db, nextPointer := n.nextPointer } : Node μ).Inv where
  coherent clientID hc := by
    by_cases hheld : n.Unheld clientID
    · rcases hx : n.sessions clientID with _ | s
      · exact (h.coherent clientID hc).congr hx.symm rfl
      · exact absurd (.inl ⟨s, hx, rfl⟩) (hheld s.externalID)
    · obtain ⟨y, hy⟩ := not_forall_not.1 hheld
      obtain ⟨hbound, howned⟩ := (h.coherent clientID hc).ownedBy hy
      exact .inl ⟨y, hbound, ⟨fun s hs => (nomatch hs), howned.stored⟩⟩
  session _ _ hs := by cases hs
  creating _ _ hp := by cases hp
  claim _ hclaim := by cases hclaim

end

/-! ### The cluster -/

/-- No node has a session of another principal for the client ID. -/
def World.OnlyHolder (w : World μ ν) (clientID y : String) : Prop :=
  ∀ m x, (w.nodes m).Holds clientID x → x = y

/-- The routing table has no subscriptions of a session that another principal still has. -/
def World.RoutesFree (w : World μ ν) (clientID y : String) : Prop :=
  ∀ sub ∈ w.routes clientID, sub.2.principal = y ∨ ∀ m, ¬ (w.nodes m).Holds clientID sub.2.principal

/-- The conditions under which the checks of the identity suffice. -/
def Admissible (w : World μ ν) : Action μ ν → Prop
  | .begin _ clientID o source _ =>
    Clean clientID ∧ o.externalID ≠ "" ∧
      -- Clean Start ends whatever session there is.
      (o.cleanStart = true → w.OnlyHolder clientID o.externalID) ∧
      ∀ m, source = some m → (w.nodes m).Holds clientID o.externalID → w.RoutesFree clientID o.externalID
  | .create n clientID clustered _ =>
    ∀ p, (w.nodes n).creating clientID = some p →
      (p.options.cleanStart = true → w.OnlyHolder clientID p.options.externalID) ∧
      -- What is handed over is put beside what the node has stored.
      (p.options.cleanStart = false → p.takeoverState ≠ none →
        (w.nodes n).StoredBy clientID p.options.externalID) ∧
      ((∀ x, (w.nodes n).Holds clientID x → x = p.options.externalID) →
        w.RoutesFree clientID p.options.externalID) ∧
      -- The subscriptions of a stored session are taken from the routing table.
      ((w.nodes n).sessions clientID = none → (w.nodes n).Holds clientID p.options.externalID →
        p.takeoverState = none → clustered = true →
        ∀ sub ∈ w.routes clientID, sub.2.principal = p.options.externalID)
  | .attach _ claim _ => w.RoutesFree claim.clientID claim.options.externalID
  | .dropRecord _ clientID | .sweepWill _ clientID => Clean clientID
  | _ => True

/-- The principal that a step of a CONNECT is for. -/
def Action.principal (w : World μ ν) : Action μ ν → Option String
  | .begin _ _ o _ _ => some o.externalID
  | .create n clientID _ _ => ((w.nodes n).creating clientID).map (·.options.externalID)
  | .attach _ claim _ => some claim.options.externalID
  | _ => none

/-- Every node keeps to its invariant. -/
def Inv (w : World μ ν) : Prop := ∀ n, (w.nodes n).Inv

/-- The sessions of a principal are as they were, with their Wills and all that is stored of them. -/
def Kept (x : String) (w w' : World μ ν) : Prop :=
  ∀ m clientID, Clean clientID → (w.nodes m).Holds clientID x →
    (w'.nodes m).sessions clientID = (w.nodes m).sessions clientID ∧
      storedFor clientID (w'.nodes m).db = storedFor clientID (w.nodes m).db ∧
      (w'.routes clientID).filter (·.2.principal = x) = (w.routes clientID).filter (·.2.principal = x)

section

lemma Kept.refl {x : String} {w : World μ ν} : Kept x w w := fun _ _ _ _ => ⟨rfl, rfl, rfl⟩

variable [DecidableEq ν] {w w' : World μ ν} {n : ν} {l : Local μ} {clientID x y : String}

lemma nodes_put_self : (w.put n l).nodes n = l.node := update_self ..

lemma nodes_put_of_ne {m : ν} (h : m ≠ n) : (w.put n l).nodes m = w.nodes m := update_of_ne h ..

lemma Inv.put (h : Inv w) (hl : l.node.Inv) : Inv (w.put n l) := by
  intro m
  by_cases hm : m = n
  · rw [hm, nodes_put_self]
    exact hl
  · rw [nodes_put_of_ne hm]
    exact h m

lemma Inv.setCreating {p : Option (Pending μ)} (h : Inv w)
    (hp : ∀ q, p = some q → Clean clientID ∧ q.Sound) : Inv (w.setCreating n clientID p) :=
  Inv.put (w := w) (l := ⟨_, w.routes⟩) h ((h n).setCreating hp)

lemma Inv.onNode {g : Local μ → Local μ} (h : Inv w) (hg : (g (w.view n)).node.Inv) :
    Inv (w.onNode n clientID g) := by
  rw [World.onNode]
  split
  · exact h.put hg
  · exact h

/-- The lock makes no difference to the sessions. -/
lemma Kept.setCreating {p : Option (Pending μ)} (h : Kept x w w') :
    Kept x w (w'.setCreating n clientID p) := by
  intro m other hother hx
  obtain ⟨hsessions, hdb, hroutes⟩ := h m other hother hx
  refine ⟨?_, ?_, hroutes⟩
  · rw [← hsessions]
    by_cases hm : m = n
    · simp [World.setCreating, hm]
    · simp [World.setCreating, hm]
  · rw [← hdb]
    by_cases hm : m = n
    · simp [World.setCreating, hm]
    · simp [World.setCreating, hm]

lemma Kept.put_view : Kept x w (w.put n (w.view n)) := by
  intro m other _ _
  by_cases hm : m = n
  · rw [hm, nodes_put_self]
    exact ⟨rfl, rfl, rfl⟩
  · rw [nodes_put_of_ne hm]
    exact ⟨rfl, rfl, rfl⟩

/-- Claims make no difference either. -/
lemma Kept.setClaims {claims : List (Claim μ)} (h : Kept x w (w.put n l)) :
    Kept x w (w.put n { l with node.claims := claims }) := by
  intro m other hother hx
  have hother := h m other hother hx
  by_cases hm : m = n
  · rw [hm, nodes_put_self] at hother ⊢
    exact hother
  · rw [nodes_put_of_ne hm] at hother ⊢
    exact hother

/-- What is done for one principal on a node that has no session of another one under the client ID. -/
lemma Kept.of_within (hw : Within clientID (w.view n) l)
    (hholds : ∀ x, (w.nodes n).Holds clientID x → x = y) (hfree : w.RoutesFree clientID y)
    (hadded : ∀ sub ∈ l.routes clientID, sub ∈ w.routes clientID ∨ sub.2.principal = y) (hne : x ≠ y) :
    Kept x w (w.put n l) := by
  intro m other hother hx
  by_cases hsame : other = clientID
  · -- The session is on another node. The routing table has nothing of it, before and after.
    subst hsame
    have hm : m ≠ n := by
      rintro rfl
      exact hne (hholds x hx)
    have hnot : ∀ sub ∈ w.routes other, sub.2.principal ≠ x := by
      intro sub hsub hprincipal
      rcases hfree sub hsub with hy | hnone
      · exact hne (hprincipal.symm.trans hy)
      · exact hnone m (hprincipal ▸ hx)
    rw [nodes_put_of_ne hm]
    refine ⟨rfl, rfl, ?_⟩
    refine Eq.trans (filter_eq_nil_iff.2 fun sub hsub => ?_)
      (filter_eq_nil_iff.2 fun sub hsub => by simpa using hnot sub hsub).symm
    rcases hadded sub hsub with hmem | hy
    · simpa using hnot sub hmem
    · simpa [hy] using hne.symm
  · have hroutes : (w.put n l).routes other = w.routes other := hw.routes other hsame
    by_cases hm : m = n
    · subst hm
      rw [nodes_put_self, hroutes]
      exact ⟨hw.sessions other hsame, hw.stored other hsame hother, rfl⟩
    · rw [nodes_put_of_ne hm, hroutes]
      exact ⟨rfl, rfl, rfl⟩

end

/-! ### Steps -/

section

variable {w : World μ ν} {n : ν} {clientID x : String} {f : Faults} {o : Options μ}
  {clustered : Bool}

/-- A CONNECT at `createSession`: it is refused, or it meets no session of another principal. -/
lemma createSession_cases {p : Pending μ} (h : Inv w)
    (hp : (w.nodes n).creating clientID = some p) (ha : Admissible w (.create n clientID clustered f)) :
    (w.view n).createSession clientID clustered p.options p.takeoverState f = (w.view n, none) ∨
      (∀ x, (w.nodes n).Holds clientID x → x = p.options.externalID) ∧
        Established clientID p.options.externalID p.options (w.view n)
          ((w.view n).createSession clientID clustered p.options p.takeoverState f) := by
  obtain ⟨hstart, hstored, hfree, hroutes⟩ := ha p hp
  obtain ⟨hc, hsound⟩ := (h n).creating clientID p hp
  have hcoherent : (w.view n).node.Coherent clientID := (h n).coherent clientID hc
  by_cases hother : ∀ x, (w.nodes n).Holds clientID x → x = p.options.externalID
  · refine .inr ⟨hother, createSession_spec hsound.bound hcoherent hother
      (fun t ht hclean => ?_) hc (fun s hs => ((h n).session clientID s hs).2) ?_⟩
    · obtain ⟨hprincipal, hitems⟩ := hsound.takeover t ht hclean
      exact ⟨hprincipal, hitems, hstored hclean (by simp [ht])⟩
    intro hs hrecord _ htake hclustered
    obtain ⟨stored, hstored⟩ := Option.isSome_iff_exists.1 hrecord
    have hholds : (w.nodes n).Holds clientID stored.1 := .inr ⟨hs, stored.2, mem_of_record hstored⟩
    exact hroutes hs (hother _ hholds ▸ hholds) htake hclustered
  · push Not at hother
    obtain ⟨x, hx, hne⟩ := hother
    have hclean : p.options.cleanStart = false := by
      by_contra htrue
      exact hne (hstart (by simpa using htrue) n x hx)
    exact .inl (createSession_of_ne hsound.bound hcoherent hx hne hclean (hstored hclean))

variable [DecidableEq ν]

lemma inv_begin {source : Option ν} (h : Inv w) (hc : Clean clientID) (hbound : o.externalID ≠ "") :
    Inv (w.begin n clientID o source f) := by
  rw [begin.eq_def]
  split
  · exact h
  split
  · refine h.setCreating fun q hq => ?_
    cases hq
    exact ⟨hc, hbound, nofun⟩
  rename_i m
  split
  · exact h
  dsimp only
  -- The node that hands the session over.
  have hclosed : ((w.view m).getSessionStateAndClose clientID
      (if o.cleanStart then none else some o.externalID) f).1.node.Inv := by
    refine (h m).of_serves (l := w.view m) clientID (fun hnone => ?_) fun y hc _ =>
      serves_getSessionStateAndClose hc
    rw [getSessionStateAndClose, hnone]
  cases hresult : (w.view m).getSessionStateAndClose clientID
      (if o.cleanStart then none else some o.externalID) f with
  | mk l captured =>
    rw [hresult] at hclosed
    cases captured with
    | none => exact h.put hclosed
    | some takeoverState =>
      dsimp only
      split
      · exact h.put hclosed
      refine (h.put hclosed).setCreating fun q hq => ?_
      cases hq
      refine ⟨hc, hbound, fun t ht hclean => ?_⟩
      -- What is handed over is of the principal that the session is checked for.
      simp only at ht hclean
      subst ht
      cases hs : (w.view m).node.sessions clientID with
      | none =>
        rw [getSessionStateAndClose, hs] at hresult
        cases hresult
      | some s =>
        obtain ⟨hbound', howned⟩ := ((h m).coherent clientID hc).ownedBy (.inl ⟨s, hs, rfl⟩)
        obtain ⟨hprincipal, hitems, hallowed⟩ :=
          captured_of_ownedBy (l := w.view m) howned (congrArg Prod.snd hresult)
        have heq : s.externalID = o.externalID :=
          (identityAllows_iff hbound' hbound).1 (hallowed o.externalID (by simp [hclean]))
        exact ⟨hprincipal.trans heq, fun item hitem => (hitems item hitem).trans heq⟩

lemma kept_begin {source : Option ν} (h : Inv w) (hc : Clean clientID) (hbound : o.externalID ≠ "")
    (hclean : o.cleanStart = true → w.OnlyHolder clientID o.externalID)
    (hfree : ∀ m, source = some m → (w.nodes m).Holds clientID o.externalID →
      w.RoutesFree clientID o.externalID) (hne : x ≠ o.externalID) :
    Kept x w (w.begin n clientID o source f) := by
  rw [begin.eq_def]
  split
  · exact .refl
  split
  · exact Kept.refl.setCreating
  rename_i m
  split
  · exact .refl
  dsimp only
  have hkept : Kept x w (w.put m ((w.view m).getSessionStateAndClose clientID
      (if o.cleanStart then none else some o.externalID) f).1) := by
    cases hs : (w.view m).node.sessions clientID with
    | none =>
      rw [getSessionStateAndClose, hs]
      exact .put_view
    | some s =>
      have hholds : (w.nodes m).Holds clientID s.externalID := .inl ⟨s, hs, rfl⟩
      obtain ⟨hbound', howned⟩ := ((h m).coherent clientID hc).ownedBy hholds
      by_cases heq : s.externalID = o.externalID
      · have hserves : Serves clientID o.externalID (w.view m) ((w.view m).getSessionStateAndClose clientID
            (if o.cleanStart then none else some o.externalID) f).1 := serves_getSessionStateAndClose hc
        exact .of_within hserves.toWithin (fun x hx => (howned.eq_of_holds hx).trans heq)
          (hfree m rfl (heq ▸ hholds)) hserves.added hne
      · have hnot : o.cleanStart ≠ true := fun hstart => heq (hclean hstart m _ hholds)
        rw [if_neg hnot, getSessionStateAndClose_of_ne (l := w.view m) howned hs hbound heq]
        exact .put_view
  cases hresult : (w.view m).getSessionStateAndClose clientID
      (if o.cleanStart then none else some o.externalID) f with
  | mk l captured =>
    rw [hresult] at hkept
    cases captured with
    | none => exact hkept
    | some takeoverState =>
      dsimp only
      split
      · exact hkept
      · exact hkept.setCreating

lemma inv_create (h : Inv w) (ha : Admissible w (.create n clientID clustered f)) :
    Inv (w.create n clientID clustered f) := by
  rw [create]
  split
  · exact h
  rename_i p hp
  have hc := ((h n).creating clientID p hp).1
  have hcases := createSession_cases h hp ha
  cases hresult : (w.view n).createSession clientID clustered p.options p.takeoverState f with
  | mk l claim =>
    rw [hresult] at hcases
    refine Inv.setCreating (h.put ?_) nofun
    rcases hcases with hrefused | ⟨-, hestablished⟩
    · cases hrefused
      exact (h n).addClaim nofun
    refine ((h n).of_within (l := w.view n) hc hestablished.toWithin hestablished.coherent).addClaim ?_
    intro c hclaim
    obtain ⟨hid, hoptions, hlt, howned⟩ := hestablished.claim c hclaim
    rw [hid, hoptions]
    exact ⟨hc, hlt, howned⟩

lemma kept_create {p : Pending μ} (h : Inv w)
    (hp : (w.nodes n).creating clientID = some p) (ha : Admissible w (.create n clientID clustered f))
    (hne : x ≠ p.options.externalID) : Kept x w (w.create n clientID clustered f) := by
  have hcases := createSession_cases h hp ha
  rw [create, hp]
  dsimp only
  generalize (w.view n).createSession clientID clustered p.options p.takeoverState f = result at hcases ⊢
  refine Kept.setCreating (Kept.setClaims ?_)
  rcases hcases with hrefused | ⟨hholds, hestablished⟩
  · rw [hrefused]
    exact .put_view
  · exact .of_within hestablished.toWithin hholds ((ha p hp).2.2.1 hholds) hestablished.added hne

lemma kept_attach {claim : Claim μ} (h : Inv w) (hclaim : claim ∈ (w.nodes n).claims)
    (hfree : w.RoutesFree claim.clientID claim.options.externalID) (hne : x ≠ claim.options.externalID) :
    Kept x w (w.put n ((w.view n).attachSession claim f)) := by
  obtain ⟨hc, -, hsession⟩ := (h n).claim claim hclaim
  by_cases hgood : ∃ s, (w.nodes n).sessions claim.clientID = some s ∧ s.pointer = claim.pointer
  · obtain ⟨s, hs, hpointer⟩ := hgood
    have hprincipal := hsession s hs hpointer
    obtain ⟨-, howned⟩ := ((h n).coherent _ hc).ownedBy (.inl ⟨s, hs, rfl⟩)
    rw [hprincipal] at howned
    have hserves := serves_attachSession (l := w.view n) (f := f) hc howned hsession
    exact .of_within hserves.toWithin (fun x hx => howned.eq_of_holds hx) hfree hserves.added hne
  -- The session that was claimed is gone.
  have hrefused : (w.view n).attachSession claim f = w.view n := by
    rw [attachSession]
    split
    · rfl
    · rename_i s hs
      rw [if_pos (.inl fun hpointer => hgood ⟨s, hs, hpointer⟩)]
  rw [hrefused]
  exact .put_view

end

/-! ### Runs -/

section

lemma inv_init : Inv ({} : World μ ν) := by
  intro n
  refine ⟨fun clientID _ => .inr fun x hx => ?_, fun _ _ hs => (nomatch hs), fun _ _ hp => (nomatch hp),
    fun _ hclaim => (nomatch hclaim)⟩
  rcases hx with ⟨s, hs, -⟩ | ⟨-, interval, hmem⟩
  · cases hs
  · cases hmem

variable [DecidableEq μ] [DecidableEq ν] {w : World μ ν} {a : Action μ ν}

theorem inv_step (h : Inv w) (ha : Admissible w a) : Inv (step w a) := by
  cases a with
  | begin n clientID o source f => exact inv_begin h ha.1 ha.2.1
  | create n clientID clustered f => exact inv_create h ha
  | attach n claim f =>
    rw [step]
    split
    · rename_i hmem
      refine h.onNode ((h n).of_serves (l := w.view n) claim.clientID (fun hnone => ?_) fun y hc hy => ?_)
      · rw [attachSession, hnone]
      · exact serves_attachSession hc hy ((h n).claim claim hmem).2.2
    · exact h
  | loseConnection n clientID =>
    refine h.put ((h n).of_serves (l := w.view n) clientID (fun hnone => ?_) fun y _ _ =>
      serves_loseConnection)
    rw [loseConnection, hnone]
  | handleDisconnect n clientID pointer epoch discardsWill delayed f =>
    refine h.onNode ((h n).of_serves (l := w.view n) clientID (fun hnone => ?_) fun y hc hy =>
      serves_handleDisconnect hc hy)
    rw [handleDisconnect, hnone]
  | expire n clientID f =>
    refine h.onNode ((h n).of_serves (l := w.view n) clientID (fun hnone => ?_) fun y hc _ =>
      serves_expireSession hc)
    rw [expireSession, hnone]
  | dropRecord n clientID =>
    exact h.put ((h n).of_deletes (l := w.view n) ha fun op hop => mem_singleton.1 hop ▸ deletes_session)
  | sweepWill n clientID =>
    exact h.onNode ((h n).of_deletes (l := w.view n) ha fun op hop => mem_singleton.1 hop ▸ deletes_will)
  | enqueue n clientID content =>
    refine h.put ((h n).of_serves (l := w.view n) clientID (fun hnone => ?_) fun y _ _ => serves_enqueue)
    rw [Local.enqueue, hnone]
  | send n clientID packetID content =>
    refine h.put ((h n).of_serves (l := w.view n) clientID (fun hnone => ?_) fun y _ _ => serves_send)
    rw [send, hnone]
  | subscribe n clientID filter content =>
    refine h.put ((h n).of_serves (l := w.view n) clientID (fun hnone => ?_) fun y hc hy =>
      serves_subscribe hc hy)
    rw [subscribe, hnone]
  | restart n => exact Inv.put (w := w) (l := ⟨_, w.routes⟩) h (h n).restart

/-- A step of a CONNECT leaves the sessions of other principals alone. -/
theorem kept_step {x y : String} (h : Inv w) (ha : Admissible w a) (hy : a.principal w = some y)
    (hne : x ≠ y) : Kept x w (step w a) := by
  cases a with
  | begin n clientID o source f =>
    cases hy
    obtain ⟨hc, hbound, hclean, hfree⟩ := ha
    exact kept_begin h hc hbound hclean hfree hne
  | create n clientID clustered f =>
    obtain ⟨p, hp, rfl⟩ := Option.map_eq_some_iff.1 hy
    exact kept_create h hp ha hne
  | attach n claim f =>
    cases hy
    rw [step]
    split
    · rename_i hmem
      rw [onNode]
      split
      · exact kept_attach h hmem ha hne
      · exact .refl
    · exact .refl
  | _ => cases hy

/-- In every run whose steps meet the conditions a connection is attached to a session of its principal
only, which carries nothing of another one, and a CONNECT leaves the sessions of other principals alone. -/
theorem sessions_isolated (actions : List (Action μ ν))
    (h : Transition.Along step Admissible ({} : World μ ν) actions) :
    (∀ n clientID s, ((Transition.run step ({} : World μ ν) actions).nodes n).sessions clientID = some s →
        (∀ y, s.connection = some y → y = s.externalID) ∧
          ∀ item ∈ s.contents.items, item.principal = s.externalID) ∧
      ∀ a x y, Admissible (Transition.run step ({} : World μ ν) actions) a →
        a.principal (Transition.run step ({} : World μ ν) actions) = some y → x ≠ y →
          Kept x (Transition.run step ({} : World μ ν) actions)
            (step (Transition.run step ({} : World μ ν) actions) a) := by
  have hinv : Inv (Transition.run step ({} : World μ ν) actions) :=
    Transition.invariant_run (fun w a hw ha => inv_step hw ha) inv_init h
  refine ⟨fun n clientID s hs => ?_, fun a x y ha hy hne => kept_step hinv ha hy hne⟩
  obtain ⟨hc, -⟩ := (hinv n).session clientID s hs
  obtain ⟨-, howned⟩ := ((hinv n).coherent clientID hc).ownedBy (.inl ⟨s, hs, rfl⟩)
  obtain ⟨hsound, -⟩ := howned.session s hs
  exact ⟨hsound.connection, hsound.items⟩

end

/-- The steps of a CONNECT for which a session is made, with nothing that fails. -/
def connect (n : Bool) (clientID externalID : String) (source : Option Bool) (pointer : Nat)
    (continuesSession : Bool) : List (Action Nat Bool) :=
  let o : Options Nat := { externalID, expiryInterval := 100 }
  [.begin n clientID o source {}, .create n clientID true {},
    .attach n { clientID, pointer, epoch := 0, continuesSession, created := true, options := o } {}]

/-- The connection of a session is lost, and what the session has is stored. -/
def disconnect (n : Bool) (clientID : String) (pointer : Nat) : List (Action Nat Bool) :=
  [.loseConnection n clientID, .handleDisconnect n clientID pointer 1 false false {}]

theorem sessions_isolated_connected :
    Kept "x" (Transition.run step {} (connect false "c" "x" none 0 false))
      (step (Transition.run step {} (connect false "c" "x" none 0 false))
        (.begin false "c" { externalID := "y" } none {})) := by
  have hclean : Clean "c" := by decide
  -- There are no subscriptions yet.
  have hroutes (w : World Nat Bool) (y : String) (h : w.routes "c" = []) : w.RoutesFree "c" y := by
    intro sub hsub
    rw [h] at hsub
    cases hsub
  let o : Options Nat := { externalID := "x", expiryInterval := 100 }
  refine (sessions_isolated (connect false "c" "x" none 0 false) ⟨⟨hclean, by decide, nofun, nofun⟩, ?_, ?_,
    trivial⟩).2 _ "x" "y" ⟨hclean, by decide, nofun, nofun⟩ rfl (by decide)
  · intro p hp
    cases hp
    exact ⟨nofun, fun _ h => absurd rfl h, fun _ => hroutes _ _ rfl, nofun⟩
  · exact hroutes _ _ (by decide +kernel)

/-- A session of `y` is handed over to a node that has messages of a session of `x` in its store, and is
stored there. When it is restored the messages are its own. -/
def inheritance : List (Action Nat Bool) :=
  connect false "c" "x" none 0 false ++ [.enqueue false "c" 7] ++ disconnect false "c" 0 ++
    [.restart false] ++ connect true "c" "y" none 0 false ++ connect false "c" "y" (some true) 1 true ++
    disconnect false "c" 1 ++ [.restart false] ++ connect false "c" "y" none 2 true

theorem leftovers_inherited :
    (((Transition.run step {} inheritance).nodes false).sessions "c").map
        (fun s => (s.connection, s.externalID, s.contents.queue)) = some (some "y", "y", [⟨"x", 7⟩]) := by
  decide +kernel

/-- A CONNECT under one client ID takes away what is stored under another one that begins with it. -/
theorem alias_deleted :
    let stored := connect false "a/b" "x" none 0 false ++ [.enqueue false "a/b" 7] ++
      disconnect false "a/b" 0
    ((Transition.run step {} stored).view false).storedQueue "a/b" = [⟨"x", 7⟩] ∧
      ((Transition.run step {} (stored ++ connect false "a" "y" none 1 false)).view false).storedQueue "a/b" =
        [] := by
  decide +kernel

end FluxMQ.Mqtt.Identity
