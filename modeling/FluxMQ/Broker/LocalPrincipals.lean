import FluxMQ.Library.Bytes
import FluxMQ.Library.Runs
import Mathlib.Data.List.Sort
import Mathlib.Data.Prod.Lex
import Mathlib.Data.String.Basic

/-!
# Sessions of local principals

`broker/localauth/store.go`: a session keeps the name and the certificate that it has authenticated with and the
digests of its secret and of its permissions, and the store compares them with its current snapshot.

* `Permissions.serialized`: what the digest of the permissions is taken of.
* `serialized_eq_iff`: it tells apart all permissions that differ in more than the order.
* `active_iff`: who is authorized after any reloads.
* `role_revokes`: a new role ends a session, even if it may do the same as before.
-/

namespace FluxMQ.LocalAuth

open Bytes Transition List

/-- A text. Its length is a number of 64 bits. -/
abbrev Text := { s : String // s.toByteArray.data.toList.length < 2 ^ 64 }

/-- `AppendUint64`, with the highest byte first. -/
def uint64 (n : Nat) : List UInt8 := (putUint 8 n).reverse

/-- `appendLengthPrefixed`. -/
def lengthPrefixed (s : Text) : List UInt8 :=
  uint64 s.1.toByteArray.data.toList.length ++ s.1.toByteArray.data.toList

/-- Entries in the order of their keys, behind their number. -/
def block {α β : Type} [LinearOrder β] (key : α → β) (print : α → List UInt8) (entries : List α) : List UInt8 :=
  uint64 entries.length ++ (entries.insertionSort fun a b => key a ≤ key b).flatMap print

/-- The role and the permissions of a principal, as they are in the snapshot. -/
structure Permissions where
  role : Text
  publish : List (Text × Text) := []
  publishPrefixes : List Text := []
  subscribe : List Text := []
  subscribePatterns : List Text := []
  short : publish.length < 2 ^ 64 ∧ publishPrefixes.length < 2 ^ 64 ∧ subscribe.length < 2 ^ 64 ∧
    subscribePatterns.length < 2 ^ 64 := by decide

namespace Permissions

variable (p q : Permissions)

/-- What `fingerprintPermissions` takes the digest of. -/
def serialized : List UInt8 :=
  lengthPrefixed p.role ++ (block toLex (fun t => lengthPrefixed t.1 ++ lengthPrefixed t.2) p.publish ++
    (block id lengthPrefixed p.publishPrefixes ++ (block id lengthPrefixed p.subscribe ++
      block id lengthPrefixed p.subscribePatterns)))

/-- The same permissions, in any order. -/
@[mk_iff]
structure SameLists : Prop where
  publish : p.publish.Perm q.publish
  publishPrefixes : p.publishPrefixes.Perm q.publishPrefixes
  subscribe : p.subscribe.Perm q.subscribe
  subscribePatterns : p.subscribePatterns.Perm q.subscribePatterns

end Permissions

/-! ### The serialized form -/

/-- A text tells where the printed value at its beginning ends, and which it is. -/
def PrefixFree {α : Type} (print : α → List UInt8) : Prop :=
  ∀ a b x y, print a ++ x = print b ++ y → a = b ∧ x = y

lemma uint64_inj {n m : Nat} (hn : n < 2 ^ 64) (hm : m < 2 ^ 64) (h : uint64 n = uint64 m) : n = m := by
  have hread := reads_getUint 8 n []
  rw [reverse_injective h, reads_getUint 8 m []] at hread
  have hmod : m % 2 ^ 64 = n % 2 ^ 64 := (Prod.mk.inj (Option.some.inj hread)).1
  rwa [Nat.mod_eq_of_lt hm, Nat.mod_eq_of_lt hn, eq_comm] at hmod

lemma length_uint64 (n : Nat) : (uint64 n).length = 8 := by simp [uint64]

/-- Two texts that begin with a length begin with the same one. -/
lemma uint64_append {n m : Nat} {x y : List UInt8} (hn : n < 2 ^ 64) (hm : m < 2 ^ 64)
    (h : uint64 n ++ x = uint64 m ++ y) : n = m ∧ x = y := by
  obtain ⟨hlength, hrest⟩ := append_inj h (by rw [length_uint64, length_uint64])
  exact ⟨uint64_inj hn hm hlength, hrest⟩

lemma prefixFree_lengthPrefixed : PrefixFree lengthPrefixed := by
  intro a b x y h
  obtain ⟨hlength, hrest⟩ := uint64_append a.2 b.2 h
  obtain ⟨hbytes, hrest⟩ := append_inj hrest hlength
  refine ⟨Subtype.ext (String.toByteArray_inj.1 ?_), hrest⟩
  exact ByteArray.ext (Array.toList_inj.1 hbytes)

section

variable {α β : Type} {f : α → List UInt8} {l l' : List α}

/-- Two lists are the same when they are sorted if they are the same up to the order. -/
lemma insertionSort_eq_iff [LinearOrder β] {key : α → β} (hkey : Function.Injective key) :
    l.insertionSort (fun a b => key a ≤ key b) = l'.insertionSort (fun a b => key a ≤ key b) ↔ l.Perm l' := by
  have : Std.Antisymm fun a b => key a ≤ key b := ⟨fun a b hab hba => hkey (le_antisymm hab hba)⟩
  constructor
  · intro h
    exact (perm_insertionSort _ l).symm.trans (h ▸ perm_insertionSort _ l')
  · intro h
    refine List.Perm.eq_of_pairwise' (pairwise_insertionSort _ l) (pairwise_insertionSort _ l') ?_
    exact ((perm_insertionSort _ l).trans h).trans (perm_insertionSort _ l').symm

variable {x y : List UInt8} (hf : PrefixFree f)
include hf

lemma PrefixFree.pair {g : β → List UInt8} (hg : PrefixFree g) :
    PrefixFree fun t : α × β => f t.1 ++ g t.2 := by
  rintro ⟨a, b⟩ ⟨a', b'⟩ x y h
  simp only [append_assoc] at h
  obtain ⟨rfl, hsecond⟩ := hf _ _ _ _ h
  obtain ⟨rfl, hrest⟩ := hg _ _ _ _ hsecond
  exact ⟨rfl, hrest⟩

lemma PrefixFree.flatMap (hlength : l.length = l'.length)
    (h : l.flatMap f ++ x = l'.flatMap f ++ y) : l = l' ∧ x = y := by
  induction l generalizing l' with
  | nil =>
    obtain rfl := length_eq_zero_iff.1 hlength.symm
    exact ⟨rfl, h⟩
  | cons a l ih =>
    cases l' with
    | nil => cases hlength
    | cons b l' =>
      rw [flatMap_cons, flatMap_cons, append_assoc, append_assoc] at h
      obtain ⟨rfl, hentries⟩ := hf _ _ _ _ h
      obtain ⟨rfl, hbehind⟩ := ih (Nat.succ.inj hlength) hentries
      exact ⟨rfl, hbehind⟩

lemma PrefixFree.block_iff [LinearOrder β] {key : α → β} (hkey : Function.Injective key)
    (hl : l.length < 2 ^ 64) (hl' : l'.length < 2 ^ 64) : block key f l ++ x = block key f l' ++ y ↔ l.Perm l' ∧ x = y := by
  rw [block, block, append_assoc, append_assoc]
  constructor
  · intro h
    obtain ⟨hlength, hrest⟩ := uint64_append hl hl' h
    obtain ⟨hsorted, hbehind⟩ := hf.flatMap (by simpa using hlength) hrest
    exact ⟨(insertionSort_eq_iff hkey).1 hsorted, hbehind⟩
  · rintro ⟨hperm, rfl⟩
    rw [hperm.length_eq, (insertionSort_eq_iff hkey).2 hperm]

end

/-- What the digest is taken of tells all permissions apart, up to their order. -/
theorem serialized_eq_iff (p q : Permissions) :
    p.serialized = q.serialized ↔ p.role = q.role ∧ p.SameLists q := by
  have hfree := prefixFree_lengthPrefixed
  have hrole (x y) : lengthPrefixed p.role ++ x = lengthPrefixed q.role ++ y ↔ p.role = q.role ∧ x = y :=
    ⟨hfree _ _ _ _, fun ⟨hrole, hrest⟩ => by rw [hrole, hrest]⟩
  obtain ⟨hp₁, hp₂, hp₃, hp₄⟩ := p.short
  obtain ⟨hq₁, hq₂, hq₃, hq₄⟩ := q.short
  rw [Permissions.serialized, Permissions.serialized, hrole, (hfree.pair hfree).block_iff toLex.injective hp₁ hq₁,
    hfree.block_iff Function.injective_id hp₂ hq₂, hfree.block_iff Function.injective_id hp₃ hq₃,
    ← append_left_inj [], hfree.block_iff Function.injective_id hp₄ hq₄, Permissions.sameLists_iff]
  tauto

/-! ### The store -/

/-- A principal of a snapshot. The snapshot has the digests of the secrets only. -/
structure Principal where
  certificateURISAN : String
  current : Text
  previous : Option Text := none
  permissions : Permissions

/-- The principals by their names. -/
abbrev Snapshot := String → Option Principal

/-- `Authentication`: what a session keeps. -/
structure Authentication (δ : Type) where
  principal : String
  certificateURISAN : String
  credential : δ
  permissions : δ

section

variable {δ : Type} [DecidableEq δ] (digest : List UInt8 → δ)

/-- The digest of a secret. -/
def credential (secret : Text) : δ := digest secret.1.toByteArray.data.toList

/-- One of the two slots for secrets has the digest. -/
def Principal.accepts (p : Principal) (candidate : δ) : Bool :=
  credential digest p.current = candidate || p.previous.any (credential digest · = candidate)

def authenticate (current : Option Snapshot) (username : String) (secret : Text) (uriSAN : String) :
    Option (Authentication δ) := do
  let snapshot ← current
  let p ← snapshot username
  if p.certificateURISAN = uriSAN ∧ p.accepts digest (credential digest secret) then
    some ⟨username, uriSAN, credential digest secret, digest p.permissions.serialized⟩
  else none

def authenticationActive (current : Option Snapshot) (a : Authentication δ) : Bool :=
  match current.bind (· a.principal) with
  | none => false
  | some p => p.certificateURISAN = a.certificateURISAN && digest p.permissions.serialized = a.permissions &&
      p.accepts digest a.credential

end

/-- What `buildSnapshot` makes of a configuration. -/
inductive Loaded where
  | failed
  /-- The snapshot says the same as the current one. -/
  | unchanged
  | changed (next : Snapshot)

def reload (current : Option Snapshot) : Loaded → Option Snapshot
  | .failed | .unchanged => current
  | .changed next => some next

/-- After any reloads a session is authorized if and only if its principal is there with its certificate, its secret
in one of the two slots, and its role and permissions, which the digest tells apart up to the order. A reload that
fails makes no difference. -/
theorem active_iff {δ : Type} [DecidableEq δ] (digest : List UInt8 → δ) (hdigest : Function.Injective digest)
    (before after : List Loaded) (username : String) (secret : Text) (uriSAN : String) (a : Authentication δ)
    (h : authenticate digest (run reload none before) username secret uriSAN = some a) :
    (∀ p q : Permissions, digest p.serialized = digest q.serialized ↔ p.role = q.role ∧ p.SameLists q) ∧
    ∃ old, (run reload none before).bind (· username) = some old ∧
      (authenticationActive digest (run reload none (before ++ after)) a = true ↔
        ∃ p, (run reload none (before ++ after)).bind (· username) = some p ∧ p.certificateURISAN = uriSAN ∧
          (p.current = secret ∨ p.previous = some secret) ∧ p.permissions.role = old.permissions.role ∧
          p.permissions.SameLists old.permissions) ∧
      authenticationActive digest (run reload none (before ++ after ++ [.failed])) a =
        authenticationActive digest (run reload none (before ++ after)) a := by
  have hcredential {s t : Text} : credential digest s = credential digest t ↔ s = t := by
    refine ⟨fun heq => Subtype.ext (String.toByteArray_inj.1 ?_), fun heq => heq ▸ rfl⟩
    exact ByteArray.ext (Array.toList_inj.1 (hdigest heq))
  have haccepts (p : Principal) : p.accepts digest (credential digest secret) = true ↔
      p.current = secret ∨ p.previous = some secret := by
    cases hprevious : p.previous <;> simp [Principal.accepts, hprevious, hcredential]
  simp only [authenticate, Option.bind_eq_bind, Option.bind_eq_some_iff] at h
  obtain ⟨snapshot, hsnapshot, old, hold, h⟩ := h
  split at h
  swap
  · cases h
  cases h
  refine ⟨fun p q => hdigest.eq_iff.trans (serialized_eq_iff p q), old, by rw [hsnapshot]; exact hold, ?_,
    by rw [run_append, run_cons, run_nil, reload]⟩
  generalize run reload none (before ++ after) = now
  rw [authenticationActive]
  split
  · rename_i hnone
    simp [hnone]
  rename_i p hp
  simp only [Bool.and_eq_true, decide_eq_true_eq, hdigest.eq_iff, serialized_eq_iff, hp, Option.some.injEq,
    exists_eq_left', haccepts]
  tauto

/-- A secret of 32 bytes. -/
def secret : Text := ⟨"0123456789abcdef0123456789abcdef", by decide +kernel⟩

/-- A principal who may publish to the stream of orders. -/
def publisher (role : Text) : Snapshot := fun name =>
  if name = "shop" then
    some {
      certificateURISAN := "spiffe://shop"
      current := secret
      permissions := { role, publish := [(⟨"", by decide⟩, ⟨"orders", by decide +kernel⟩)] } }
  else none

theorem active_iff_reloaded :
    let loaded := Loaded.changed (publisher ⟨"publisher", by decide +kernel⟩)
    ∃ a, authenticate id (run reload none [loaded]) "shop" secret "spiffe://shop" = some a ∧
      authenticationActive id (run reload none ([loaded] ++ [.failed, loaded])) a = true := by
  refine ⟨_, rfl, ?_⟩
  obtain ⟨-, old, hold, hiff, -⟩ := active_iff id Function.injective_id
    [.changed (publisher ⟨"publisher", by decide +kernel⟩)]
    [.failed, .changed (publisher ⟨"publisher", by decide +kernel⟩)] "shop" secret "spiffe://shop" _ rfl
  exact hiff.2 ⟨old, hold, by cases hold; exact ⟨rfl, .inl rfl, rfl, .refl _, .refl _, .refl _, .refl _⟩⟩

/-- A service that may do what the publisher might, with its secret and its certificate. -/
theorem role_revokes :
    let old := publisher ⟨"publisher", by decide +kernel⟩
    let new := publisher ⟨"service", by decide +kernel⟩
    ∃ a, authenticate id (some old) "shop" secret "spiffe://shop" = some a ∧
      authenticationActive id (some new) a = false ∧
      ∃ p q, old "shop" = some p ∧ new "shop" = some q ∧ q.certificateURISAN = p.certificateURISAN ∧
        q.current = p.current ∧ q.permissions.SameLists p.permissions :=
  ⟨_, rfl, by decide +kernel, _, _, rfl, rfl, rfl, rfl, .refl _, .refl _, .refl _, .refl _⟩

end FluxMQ.LocalAuth
