import Mathlib.Data.List.AList

/-!
# The identity cache

`identityCache` of `broker/identitycache.go`: a table from client IDs to external identities that is bounded
in size and in time. The entries are kept in the order of their last use, the most recent one first, which
is the order of the list behind an `AList`: inserting a key puts it to the front.

* `IdentityCache.store`, `load`, `delete`: the operations, at a time of the clock.
* `lookup_store_self`, `lookup_store_of_ne`, `lookup_load`, `lookup_delete_of_ne`: what becomes of an entry.
  A store may take the least recently used entry of another client ID away, a load the entry that it finds.
-/

namespace FluxMQ.Auth

open AList

/-- `identityEntry` without its key. -/
structure Identity where
  external : String
  /-- `none` means no expiry. -/
  expires : Option Int
  deriving Repr, DecidableEq

/-- `IdentityCache`: the entries, with the limits on their number and age. -/
structure IdentityCache where
  /-- No bound unless positive. -/
  capacity : Int
  /-- No expiry unless positive. -/
  ttl : Int
  /-- `entries` and `order`, the most recently used first. -/
  order : AList (fun _ : String => Identity) := ∅

namespace IdentityCache

variable (c : IdentityCache)

def expiry (now : Int) : Option Int :=
  if c.ttl ≤ 0 then none else some (now + c.ttl)

def evictOldest : IdentityCache :=
  match c.order.entries.getLast? with
  | none => c
  | some oldest => { c with order := c.order.erase oldest.1 }

/-- `Store`. An entry that is there is replaced and moved to the front. -/
def store (now : Int) (clientID external : String) : IdentityCache :=
  let stored := { c with order := c.order.insert clientID ⟨external, c.expiry now⟩ }
  if clientID ∈ c.order then stored
  else if 0 < c.capacity ∧ c.capacity < stored.order.entries.length then stored.evictOldest
  else stored

/-- `Load`. An entry whose time has come is removed, any other one is moved to the front. -/
def load (now : Int) (clientID : String) : IdentityCache × Option String :=
  match c.order.lookup clientID with
  | none => (c, none)
  | some entry =>
    if entry.expires.any (· < now) then ({ c with order := c.order.erase clientID }, none)
    else ({ c with order := c.order.insert clientID entry }, some entry.external)

def delete (clientID : String) : IdentityCache :=
  { c with order := c.order.erase clientID }

/-! ### Entries -/

variable {c} {now : Int} {clientID other external : String}

lemma evictOldest_ttl : c.evictOldest.ttl = c.ttl := by
  rw [evictOldest]
  split <;> rfl

@[simp]
lemma store_ttl : (c.store now clientID external).ttl = c.ttl := by
  rw [store]
  split
  · rfl
  · split
    · exact evictOldest_ttl
    · rfl

@[simp]
lemma load_ttl : (c.load now clientID).1.ttl = c.ttl := by
  rw [load]
  split
  · rfl
  · split <;> rfl

/-- Only the oldest entry is evicted. -/
lemma lookup_evictOldest (h : ∀ oldest ∈ c.order.entries.getLast?, oldest.1 ≠ other) :
    c.evictOldest.order.lookup other = c.order.lookup other := by
  rw [evictOldest]
  split
  · rfl
  · rename_i oldest holdest
    exact lookup_erase_ne (h oldest holdest).symm

lemma entries_insert {entry : Identity} (h : clientID ∉ c.order) :
    (c.order.insert clientID entry).entries = ⟨clientID, entry⟩ :: c.order.entries :=
  congrArg entries (insert_of_notMem h)

/-- The oldest entry is still the oldest one after another client ID has been stored. -/
lemma getLast?_insert {entry : Identity} (h : clientID ∉ c.order) {oldest : Sigma fun _ : String => Identity}
    (holdest : oldest ∈ (c.order.insert clientID entry).entries.getLast?) :
    c.order.entries = [] ∧ oldest.1 = clientID ∨ oldest ∈ c.order.entries.getLast? := by
  rw [entries_insert h] at holdest
  cases hentries : c.order.entries with
  | nil =>
    rw [hentries] at holdest
    obtain rfl := Option.some.inj holdest
    exact .inl ⟨rfl, rfl⟩
  | cons first rest =>
    rw [hentries, List.getLast?_cons_cons] at holdest
    exact .inr holdest

/-- What is stored is there. -/
theorem lookup_store_self :
    (c.store now clientID external).order.lookup clientID = some ⟨external, c.expiry now⟩ := by
  rw [store]
  split
  · exact lookup_insert _
  rename_i hnew
  split
  · -- There is an older entry to evict, as there is room for one at least.
    rename_i hfull
    have hlength : (c.order.insert clientID ⟨external, c.expiry now⟩).entries.length =
        c.order.entries.length + 1 := by
      rw [entries_insert hnew]
      rfl
    rw [lookup_evictOldest, lookup_insert]
    intro oldest holdest hsame
    rcases getLast?_insert hnew holdest with ⟨hempty, -⟩ | holdest
    · rw [hlength, hempty] at hfull
      simp only [List.length_nil] at hfull
      omega
    · exact hnew (hsame ▸ mem_keys.2 (List.mem_map_of_mem (List.mem_of_getLast? holdest)))
  · exact lookup_insert _

/-- The entry of another client ID stays as it is unless it has to make room. -/
theorem lookup_store_of_ne (hne : other ≠ clientID)
    (hroom : clientID ∈ c.order ∨ c.capacity ≤ 0 ∨ c.order.entries.length < c.capacity ∨
      ∀ oldest ∈ c.order.entries.getLast?, oldest.1 ≠ other) :
    (c.store now clientID external).order.lookup other = c.order.lookup other := by
  rw [store]
  split
  · exact lookup_insert_ne hne
  rename_i hnew
  split
  · rename_i hfull
    rw [entries_insert hnew, List.length_cons] at hfull
    have holdest : ∀ oldest ∈ c.order.entries.getLast?, oldest.1 ≠ other := by
      rcases hroom with hmem | hunbounded | hroom | holdest
      · exact absurd hmem hnew
      · omega
      · omega
      · exact holdest
    rw [lookup_evictOldest, lookup_insert_ne hne]
    intro oldest hlast
    rcases getLast?_insert hnew hlast with ⟨-, hself⟩ | hlast
    · exact hself ▸ hne.symm
    · exact holdest oldest hlast
  · exact lookup_insert_ne hne

section

variable {entry : Identity} (h : c.order.lookup clientID = some entry)
  (htime : ∀ t, entry.expires = some t → now ≤ t)
include h htime

/-- An entry whose time has not come is found. -/
lemma load_of_lookup : (c.load now clientID).2 = some entry.external := by
  have hvalid : entry.expires.any (· < now) = false := by
    cases hexpires : entry.expires with
    | none => rfl
    | some t => simpa using htime t hexpires
  simp [load, h, hvalid]

/-- It stays as it is, and so do all others. -/
theorem lookup_load (other : String) :
    (c.load now clientID).1.order.lookup other = c.order.lookup other := by
  have hvalid : entry.expires.any (· < now) = false := by
    cases hexpires : entry.expires with
    | none => rfl
    | some t => simpa using htime t hexpires
  simp only [load, h, hvalid, Bool.false_eq_true, if_false]
  by_cases hother : other = clientID
  · rw [hother, lookup_insert, h]
  · exact lookup_insert_ne hother

end

theorem lookup_delete_of_ne (hne : other ≠ clientID) :
    (c.delete clientID).order.lookup other = c.order.lookup other :=
  lookup_erase_ne hne

end IdentityCache

end FluxMQ.Auth
