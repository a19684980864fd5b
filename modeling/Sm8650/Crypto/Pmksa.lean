import Mathlib.Data.Fin.Tuple.Basic

/-!
# The PMKSA cache

A vdev keeps up to 16 pairwise master keys, each for a BSSID or for an SSID with its cache id.
Before an entry is added, the first one that matches it goes, and with it what holds the same key.
The comparisons run as far as one of the two sides is long.

Source: `wlan_crypto_global_api.c`.
-/

namespace Sm8650.Crypto

open Option

/-- `WLAN_CRYPTO_MAX_PMKID` -/
def wlanCryptoMaxPmkid : Nat := 16

/-- The fields of `struct wlan_crypto_pmksa` that the cache compares; `ssid` and `pmk` are arrays
of fixed size, of which the lengths tell how much is used. -/
structure WlanCryptoPmksa where
  bssid : BitVec 48
  pmk : Nat → BitVec 8
  pmkLen : Nat
  ssid : Nat → BitVec 8
  ssidLen : Nat
  cacheId : BitVec 16

/-- The table of a vdev, with no entry where the pointer is null. -/
abbrev PmksaCache := Fin wlanCryptoMaxPmkid → Option WlanCryptoPmksa

/-- `!qdf_mem_cmp` -/
def memEq (first second : Nat → BitVec 8) (len : Nat) : Bool :=
  decide (∀ i < len, first i = second i)

/-- The code's test whether the entry `e` matches. -/
def WlanCryptoPmksa.finds (p e : WlanCryptoPmksa) : Bool :=
  if p.ssidLen = 0 then p.bssid != 0 && p.bssid == e.bssid
  else memEq p.ssid e.ssid p.ssidLen && p.cacheId == e.cacheId

/-- `del_pmk`, once the key is copied. -/
def WlanCryptoPmksa.delPmk (e : WlanCryptoPmksa) (i : Nat) : BitVec 8 :=
  if i < e.pmkLen then e.pmk i else 0

/-- The code's test whether another entry goes with `e`. -/
def WlanCryptoPmksa.takes (e other : WlanCryptoPmksa) : Bool :=
  other.pmkLen != 0 && memEq other.pmk e.delPmk other.pmkLen

namespace PmksaCache

/-- The first entry that `matches` names. -/
def first (cache : PmksaCache) (named : WlanCryptoPmksa → Bool) : Option (Fin wlanCryptoMaxPmkid) :=
  Fin.find? fun i => (cache i).any named

/-- The cache without an entry and those that go with it. -/
def without (cache : PmksaCache) (i : Fin wlanCryptoMaxPmkid)
    (along : WlanCryptoPmksa → WlanCryptoPmksa → Bool) : PmksaCache := fun j =>
  if j = i ∨ (cache i).any (fun e => (cache j).any (along e)) then none else cache j

/-- `wlan_crypto_del_pmksa` -/
def delPmksa (cache : PmksaCache) (p : WlanCryptoPmksa) : PmksaCache :=
  (cache.first p.finds).elim cache fun i => cache.without i WlanCryptoPmksa.takes

/-- `wlan_crypto_set_pmksa`; says whether it succeeded. -/
def setPmksa (cache : PmksaCache) (p : WlanCryptoPmksa) : Bool × PmksaCache :=
  match Fin.find? fun i => (cache.delPmksa p i).isNone with
  | none => (false, cache.delPmksa p)
  | some i => (true, Function.update (cache.delPmksa p) i (some p))

/-- `wlan_crypto_get_peer_pmksa` -/
def getPeerPmksa (cache : PmksaCache) (p : WlanCryptoPmksa) : Option WlanCryptoPmksa :=
  (cache.first p.finds).bind cache

end PmksaCache

/-! ## What an update should do -/

/-- The entry is for the BSSID, or for the SSID and the cache id. -/
def WlanCryptoPmksa.isFor (e p : WlanCryptoPmksa) : Bool :=
  if p.ssidLen = 0 then p.bssid != 0 && p.bssid == e.bssid
  else p.ssidLen == e.ssidLen && memEq p.ssid e.ssid p.ssidLen && p.cacheId == e.cacheId

/-- The entries hold the same key. -/
def WlanCryptoPmksa.samePmk (e other : WlanCryptoPmksa) : Bool :=
  e.pmkLen == other.pmkLen && memEq other.pmk e.pmk other.pmkLen

namespace PmksaCache

/-- The cache without the first entry that is for the BSSID or the SSID, and those of its key. -/
def removed (cache : PmksaCache) (p : WlanCryptoPmksa) : PmksaCache :=
  (cache.first (·.isFor p)).elim cache fun i => cache.without i WlanCryptoPmksa.samePmk

/-- Deleting removes just these, and setting either fails and changes nothing, or removes them and
adds an entry that can be found. -/
def Updates (cache : PmksaCache) (p : WlanCryptoPmksa) : Prop :=
  cache.delPmksa p = cache.removed p ∧
    (cache.setPmksa p = (false, cache) ∨
      ∃ i, cache.removed p i = none ∧
        cache.setPmksa p = (true, Function.update (cache.removed p) i (some p)) ∧
        (cache.setPmksa p).2.getPeerPmksa p = some p)

/-- If the code's test finds an entry, the first one for the BSSID or the SSID has its key; of the
others, those with a key that goes on as this one and then with zeros have its length, and none is
without a key as well. -/
def RemovalFits (cache : PmksaCache) (p : WlanCryptoPmksa) : Prop :=
  ∀ i e, cache.first p.finds = some i → cache i = some e →
    (∃ j other, cache.first (·.isFor p) = some j ∧ cache j = some other ∧ e.samePmk other = true) ∧
    ∀ j other, j ≠ i → cache j = some other →
      (e.takes other = true → e.pmkLen = other.pmkLen) ∧ (e.pmkLen = 0 → other.pmkLen ≠ 0)

/-- The entry has something to be found by, or there is no room for it. -/
def Findable (cache : PmksaCache) (p : WlanCryptoPmksa) : Prop :=
  p.ssidLen ≠ 0 ∨ p.bssid ≠ 0 ∨ ∀ i, cache i ≠ none

end PmksaCache

/-! ## The tests -/

namespace WlanCryptoPmksa

variable {e other third p : WlanCryptoPmksa}

theorem samePmk_iff : e.samePmk other = true ↔
    e.pmkLen = other.pmkLen ∧ ∀ i < other.pmkLen, other.pmk i = e.pmk i := by
  simp [samePmk, memEq]

theorem samePmk_refl (e : WlanCryptoPmksa) : e.samePmk e = true :=
  samePmk_iff.mpr ⟨rfl, fun _ _ => rfl⟩

theorem samePmk_symm (same : e.samePmk other = true) : other.samePmk e = true := by
  obtain ⟨len, bytes⟩ := samePmk_iff.mp same
  exact samePmk_iff.mpr ⟨len.symm, fun i used => (bytes i (len ▸ used)).symm⟩

theorem samePmk_congr (same : e.samePmk other = true) :
    other.samePmk third = true ↔ e.samePmk third = true := by
  have trans {first second : WlanCryptoPmksa} (left : first.samePmk second = true)
      (right : second.samePmk third = true) : first.samePmk third = true := by
    obtain ⟨len, bytes⟩ := samePmk_iff.mp left
    obtain ⟨nextLen, nextBytes⟩ := samePmk_iff.mp right
    exact samePmk_iff.mpr ⟨len.trans nextLen, fun i used =>
      (nextBytes i used).trans (bytes i (nextLen ▸ used))⟩
  exact ⟨trans same, trans (samePmk_symm same)⟩

/-- When the code's test of two keys is right. -/
theorem takes_iff_samePmk : (e.takes other = true ↔ e.samePmk other = true) ↔
    (e.takes other = true → e.pmkLen = other.pmkLen) ∧ (e.pmkLen = 0 → other.pmkLen ≠ 0) := by
  have takes : e.takes other = true ↔
      other.pmkLen ≠ 0 ∧ ∀ i < other.pmkLen, other.pmk i = e.delPmk i := by
    simp [WlanCryptoPmksa.takes, memEq]
  by_cases len : e.pmkLen = other.pmkLen
  · have bytes : (∀ i < other.pmkLen, other.pmk i = e.delPmk i) ↔
        ∀ i < other.pmkLen, other.pmk i = e.pmk i :=
      forall₂_congr fun i used => by rw [delPmk, if_pos (len ▸ used)]
    rw [takes, samePmk_iff, bytes]
    by_cases zero : other.pmkLen = 0
    · simp [zero]
    · simp [zero]
  · simp only [samePmk_iff, len, false_and, iff_false]
    exact ⟨fun not => ⟨not, fun zero more => len (zero.trans more.symm)⟩, And.left⟩

theorem finds_of_isFor (isFor : e.isFor p = true) : p.finds e = true := by
  unfold WlanCryptoPmksa.isFor at isFor
  unfold finds
  split at isFor
  case isTrue short => rwa [if_pos short]
  case isFalse long =>
    rw [if_neg long]
    simp only [Bool.and_eq_true] at isFor ⊢
    exact ⟨isFor.1.2, isFor.2⟩

theorem finds_self_iff : p.finds p = true ↔ p.ssidLen ≠ 0 ∨ p.bssid ≠ 0 := by
  unfold finds
  split <;> simp_all [memEq]

/-- Only what can be found finds something. -/
theorem finds_self_of_finds (found : p.finds e = true) : p.finds p = true := by
  rw [finds_self_iff]
  unfold finds at found
  split at found
  case isTrue short =>
    simp only [Bool.and_eq_true, bne_iff_ne] at found
    exact .inr found.1
  case isFalse long => exact .inl long

end WlanCryptoPmksa

namespace PmksaCache

variable {cache : PmksaCache} {p e : WlanCryptoPmksa} {i : Fin wlanCryptoMaxPmkid}

open WlanCryptoPmksa

theorem first_eq_some_iff {named : WlanCryptoPmksa → Bool} : cache.first named = some i ↔
    (∃ e, cache i = some e ∧ named e = true) ∧
      ∀ j < i, ∀ e, cache j = some e → named e = false := by
  simp [first, any_eq_true, any_eq_false]

theorem first_eq_none_iff {named : WlanCryptoPmksa → Bool} :
    cache.first named = none ↔ ∀ i e, cache i = some e → named e = false := by
  simp [first, any_eq_false]

/-! ## Removing -/

theorem without_apply {along : WlanCryptoPmksa → WlanCryptoPmksa → Bool} (isEntry : cache i = some e)
    (j : Fin wlanCryptoMaxPmkid) :
    cache.without i along j =
      if j = i ∨ (cache j).any (along e) = true then none else cache j := by
  rw [without, isEntry]
  rfl

theorem without_eq_without_iff {j : Fin wlanCryptoMaxPmkid} {other : WlanCryptoPmksa}
    (isEntry : cache i = some e) (isOther : cache j = some other) (same : e.samePmk other = true) :
    cache.without i takes = cache.without j samePmk ↔ ∀ k third, k ≠ i → cache k = some third →
      (e.takes third = true → e.pmkLen = third.pmkLen) ∧ (e.pmkLen = 0 → third.pmkLen ≠ 0) := by
  rw [funext_iff]
  refine forall_congr' fun k => ?_
  rw [without_apply isEntry, without_apply isOther]
  cases isThird : cache k with
  | none => simp
  | some third =>
    have spec : k = j ∨ other.samePmk third = true ↔ e.samePmk third = true := by
      rw [← samePmk_congr same, or_iff_right_of_imp]
      rintro rfl
      cases isThird.symm.trans isOther
      exact samePmk_refl _
    have removes (first second : Prop) [Decidable first] [Decidable second] :
        ((if first then none else some third) = if second then none else some third) ↔
          (first ↔ second) := by
      split_ifs <;> simp_all
    rw [removes, any_some, any_some, spec]
    by_cases self : k = i
    · subst self
      cases isThird.symm.trans isEntry
      simp [samePmk_refl]
    · simp [self, ← takes_iff_samePmk]

theorem delPmksa_eq_removed_iff : cache.delPmksa p = cache.removed p ↔ cache.RemovalFits p := by
  unfold delPmksa removed RemovalFits
  cases found : cache.first p.finds with
  | none =>
    have unnamed : cache.first (·.isFor p) = none := first_eq_none_iff.mpr fun i e isEntry =>
      Bool.eq_false_iff.mpr fun isFor => Bool.eq_false_iff.mp
        (first_eq_none_iff.mp found i e isEntry) (finds_of_isFor isFor)
    simp [unnamed]
  | some i =>
    obtain ⟨⟨e, isEntry, -⟩, -⟩ := first_eq_some_iff.mp found
    have gone : cache.without i takes i = none := by simp [without]
    cases named : cache.first (·.isFor p) with
    | none =>
      refine iff_of_false (fun same => ?_) fun fits => ?_
      · cases gone.symm.trans ((congrFun same i).trans isEntry)
      · obtain ⟨⟨j, other, isFirst, -⟩, -⟩ := fits i e rfl isEntry
        cases isFirst
    | some j =>
      obtain ⟨⟨other, isOther, -⟩, -⟩ := first_eq_some_iff.mp named
      by_cases same : e.samePmk other = true
      · refine (without_eq_without_iff isEntry isOther same).trans
          ⟨fun all k third isFirst isThird => ?_, fun fits => (fits i e rfl isEntry).2⟩
        cases isFirst
        cases isThird.symm.trans isEntry
        exact ⟨⟨j, other, rfl, isOther, same⟩, all⟩
      · refine iff_of_false (fun alike => ?_) fun fits => ?_
        · have stays : cache.without j samePmk i = some e := by
            rw [without_apply isOther, isEntry, if_neg]
            rintro (rfl | key)
            · cases isEntry.symm.trans isOther
              exact same (samePmk_refl e)
            · exact same (samePmk_symm key)
          cases gone.symm.trans ((congrFun alike i).trans stays)
        · obtain ⟨⟨k, third, isFirst, isThird, key⟩, -⟩ := fits i e rfl isEntry
          cases isFirst
          cases isThird.symm.trans isOther
          exact same key

/-! ## Adding -/

/-- What is left was there, and a search that found something left a slot free. -/
theorem delPmksa_sub {j : Fin wlanCryptoMaxPmkid} (left : cache.delPmksa p j = some e) :
    cache j = some e ∧ ∀ i, cache.first p.finds = some i → j ≠ i := by
  unfold delPmksa at left
  cases found : cache.first p.finds with
  | none =>
    rw [found] at left
    exact ⟨left, fun i isFirst => nomatch isFirst⟩
  | some i =>
    rw [found, elim_some, without, ite_none_left_eq_some] at left
    refine ⟨left.2, fun k isFirst same => left.1 (.inl ?_)⟩
    rw [same, some.inj isFirst]

theorem findable_of_finds (room : cache.delPmksa p i = none) (findable : cache.Findable p) :
    p.finds p = true := by
  rcases findable with ssid | bssid | full
  · exact finds_self_iff.mpr (.inl ssid)
  · exact finds_self_iff.mpr (.inr bssid)
  · cases found : cache.first p.finds with
    | none =>
      rw [delPmksa, found] at room
      exact absurd room (full i)
    | some j =>
      obtain ⟨⟨e, -, finds⟩, -⟩ := first_eq_some_iff.mp found
      exact finds_self_of_finds finds

/-- The entry goes to a slot before those that would be found in its place. -/
theorem getPeerPmksa_update (finds : p.finds p = true)
    (isFirst : ∀ j < i, cache.delPmksa p j ≠ none) :
    getPeerPmksa (Function.update (cache.delPmksa p) i (some p)) p = some p := by
  have found : first (Function.update (cache.delPmksa p) i (some p)) p.finds = some i := by
    refine first_eq_some_iff.mpr ⟨⟨p, Function.update_self i _ _, finds⟩, fun j before e left => ?_⟩
    rw [Function.update_of_ne (ne_of_lt before)] at left
    obtain ⟨was, _⟩ := delPmksa_sub left
    cases named : cache.first p.finds with
    | none => exact first_eq_none_iff.mp named j e was
    | some k =>
      refine (first_eq_some_iff.mp named).2 j (lt_of_lt_of_le before ?_) e was
      refine not_lt.mp fun earlier => isFirst k earlier ?_
      rw [delPmksa, named, elim_some, without, if_pos (.inl rfl)]
  rw [getPeerPmksa, found, bind_some, Function.update_self]

/-- An update does what it should exactly if the removal and the new entry fit. -/
theorem updates_iff : cache.Updates p ↔ cache.RemovalFits p ∧ cache.Findable p := by
  rw [← delPmksa_eq_removed_iff]
  refine and_congr_right fun removes => ?_
  rw [← removes]
  unfold setPmksa
  cases free : Fin.find? fun i => (cache.delPmksa p i).isNone with
  | none =>
    have full (j : Fin wlanCryptoMaxPmkid) : cache.delPmksa p j ≠ none := by
      simpa [isSome_iff_ne_none] using Fin.find?_eq_none_iff.mp free j
    have same : cache.delPmksa p = cache := funext fun j => by
      obtain ⟨e, left⟩ := ne_none_iff_exists'.mp (full j)
      rw [left, (delPmksa_sub left).1]
    rw [same] at full ⊢
    exact iff_of_true (.inl rfl) (.inr (.inr full))
  | some i =>
    obtain ⟨isNone, before⟩ := Fin.find?_eq_some_iff.mp free
    have room := isNone_iff_eq_none.mp isNone
    refine ⟨fun updates => ?_, fun findable => .inr ⟨i, room, rfl, ?_⟩⟩
    · obtain ⟨j, -, -, get⟩ := updates.resolve_left (by simp)
      obtain ⟨k, isFirst, -⟩ := bind_eq_some_iff.mp get
      obtain ⟨⟨e, -, finds⟩, -⟩ := first_eq_some_iff.mp isFirst
      exact (finds_self_iff.mp (finds_self_of_finds finds)).imp_right .inl
    · refine getPeerPmksa_update (findable_of_finds room findable) fun j earlier => ?_
      simpa [isSome_iff_ne_none] using before j earlier

/-- An entry for a BSSID with a key of a length. -/
def keyOf (bssid : BitVec 48) (pmkLen : Nat) : WlanCryptoPmksa :=
  ⟨bssid, fun _ => 7, pmkLen, fun _ => 0, 0, 0⟩

/-- The entry of a network goes with that of another one, whose key it only begins. -/
theorem not_updates : ¬∀ (cache : PmksaCache) (p : WlanCryptoPmksa), cache.Updates p := by
  intro updates
  have removes := congrFun (updates
    (fun i => if i.val = 0 then some (keyOf 1 48) else if i.val = 1 then some (keyOf 2 32) else none)
    (keyOf 1 48)).1 ⟨1, by decide⟩
  cases removes

end PmksaCache

end Sm8650.Crypto
