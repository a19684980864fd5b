import Sm8650.Crypto.ElementRoundTrip

/-!
# What an element advertises

A parameter set with one group cipher, some pairwise ciphers, key managements and at most
one management cipher is written into an element and read back. Everything comes back
except the two key managements that the writer does not have.
-/

namespace Sm8650.Crypto

open Data List FlagSet KeyMgmt CryptoParams Option

/-! ## Parameter sets -/

/-- The ciphers for data frames. -/
def dataCiphers : List Cipher := [.tkip, .aesCcm, .aesCcm256, .aesGcm, .aesGcm256]

/-- The ciphers of `IS_MGMT_CIPHER`. -/
def mgmtCiphers : List Cipher := [.aesCmac, .aesCmac256, .aesGmac, .aesGmac256]

/-- A parameter set with one group cipher, a set of pairwise ciphers, a set of key
managements that the checker can return, CCKM only alone, and at most one management cipher. -/
structure Profile where
  params : CryptoParams
  group : Cipher
  mgmt : Option Cipher
  group_data : group ∈ dataCiphers
  mcast_eq : params.mcastcipherset = single 32 group.code
  ucast_nonempty : params.ucastcipherset ≠ 0
  ucast_data : ∀ i, params.ucastcipherset.getLsbD i = true → ∃ c ∈ dataCiphers, c.code = i
  keyMgmt_known : params.keyMgmt = single 32 cckm.code ∨
    params.keyMgmt ≠ 0 ∧ ∀ i, params.keyMgmt.getLsbD i = true →
      ∃ k w, wlanCryptoRsnSuiteToKeymgmt w = some k ∧ k ≠ .cckm ∧ k.code = i
  mgmt_data : ∀ c ∈ mgmt, c ∈ mgmtCiphers
  mgmt_eq : params.mgmtcipherset = insertAll 0 (mgmt.toList.map Cipher.code)

/-- The RSN element is accepted and everything in it is recovered. -/
def RsnRoundTrip (params : CryptoParams) (pmksa : Option Pmksa) : Prop :=
  ∃ ie, wlanCryptoBuildRsnieWithPmksa (some params) pmksa = some ie ∧
    ie.length = 2 + (ie.getD 1 0).toNat ∧
    ∀ previous, ∃ read, wlanCryptoRsnieCheck previous ie = (.success, read) ∧
      read.mcastcipherset = params.mcastcipherset ∧
      read.ucastcipherset = params.ucastcipherset ∧
      read.keyMgmt = params.keyMgmt ∧
      read.rsnCaps = params.rsnCaps ∧
      (params.mfpEnabled = true → read.mgmtcipherset =
        if params.mgmtcipherset = 0 then single 32 Cipher.aesCmac.code
        else params.mgmtcipherset)

/-- The WPA element is accepted and the ciphers and the key management that were written
are added to the record. -/
def WpaRoundTrip (params : CryptoParams) : Prop :=
  ∃ ie, wlanCryptoBuildWpaie (some params) = some ie ∧
    ie.length = 2 + (ie.getD 1 0).toNat ∧
    ∀ previous, ∃ read, wlanCryptoWpaieCheck previous ie = (.success, read) ∧
      read.mcastcipherset =
        insertAll previous.mcastcipherset ((wpaMcast params).map Cipher.code) ∧
      read.ucastcipherset =
        insertAll previous.ucastcipherset ((wpaUcast params).map Cipher.code) ∧
      read.keyMgmt = insert previous.keyMgmt (wpaKeyMgmt params).code

/-! ## What is written -/

namespace Profile

variable (profile : Profile)

theorem rsnMcast_eq : rsnMcast profile.params = [profile.group] := by
  have data := profile.group_data
  unfold rsnMcast hasMcastCipher
  rw [profile.mcast_eq]
  revert data
  generalize profile.group = group
  revert group
  decide

theorem mgmtOrder_eq : rsnMgmtOrder.filter profile.params.hasMgmtCipher = profile.mgmt.toList := by
  have data := profile.mgmt_data
  have filter : profile.params.hasMgmtCipher =
      fun c => mem (insertAll 0 (profile.mgmt.toList.map Cipher.code)) c.code :=
    funext fun c => congrArg (mem · c.code) profile.mgmt_eq
  rw [filter]
  revert data
  generalize profile.mgmt = mgmt
  cases mgmt with
  | none => intro _; decide
  | some c =>
    intro data
    have member := data c rfl
    clear data filter
    revert c
    decide

/-- The pairwise ciphers come back as the same set. -/
theorem rsnUcast_eq :
    insertAll 0#32 ((rsnUcast profile.params).map Cipher.code) =
      profile.params.ucastcipherset := by
  refine insertAll_filter fun i member => ?_
  obtain ⟨c, data, rfl⟩ := profile.ucast_data i member
  have listed : ∀ c ∈ dataCiphers, c ∈ rsnUcastOrder := by decide
  exact ⟨c, listed c data, rfl⟩

theorem rsnUcast_ne_nil : rsnUcast profile.params ≠ [] := by
  intro empty
  have same := profile.rsnUcast_eq
  rw [empty] at same
  exact profile.ucast_nonempty same.symm

/-- The key managements come back as the same set exactly when the writer has all of them. -/
theorem rsnKeyMgmt_eq :
    insertAll 0#32 ((defaultedKeyMgmts (rsnKeyMgmt profile.params)).map code) =
      profile.params.keyMgmt ↔
    profile.params.hasKeyMgmt .ftPskSha384 = false ∧
      profile.params.hasKeyMgmt .pskSha384 = false := by
  constructor
  · intro same
    have written : ∀ k ∈ defaultedKeyMgmts (rsnKeyMgmt profile.params),
        k ∈ cckm :: rsnKeyMgmtOrder := by
      intro k member
      unfold rsnKeyMgmt at member
      by_cases cckm : profile.params.hasKeyMgmt .cckm = true
      · rw [if_pos cckm] at member
        exact mem_singleton.mp member ▸ mem_cons_self
      · rw [if_neg cckm] at member
        cases picked : rsnKeyMgmtOrder.filter profile.params.hasKeyMgmt with
        | nil =>
          rw [picked] at member
          cases mem_singleton.mp member
          decide
        | cons first others =>
          rw [picked] at member
          change k ∈ first :: others at member
          rw [← picked] at member
          exact mem_cons_of_mem _ (mem_filter.mp member).1
    have missing : ∀ k, k ∉ cckm :: rsnKeyMgmtOrder →
        profile.params.hasKeyMgmt k = false := by
      intro k unwritten
      unfold hasKeyMgmt
      rw [mem_eq_getLsbD, ← same, getLsbD_insertAll, BitVec.getLsbD_zero,
        Bool.false_or, decide_eq_false_iff_not]
      rintro ⟨-, found⟩
      obtain ⟨other, member, code⟩ := mem_map.mp found
      exact unwritten (code_injective code ▸ written other member)
    exact ⟨missing _ (by decide), missing _ (by decide)⟩
  · rintro ⟨not_ft, not_psk⟩
    rcases profile.keyMgmt_known with alone | ⟨nonempty, known⟩
    · have cckm : rsnKeyMgmt profile.params = [.cckm] := by
        unfold rsnKeyMgmt hasKeyMgmt
        rw [alone]
        decide
      rw [cckm, alone]
      rfl
    · have not_cckm : ¬ profile.params.hasKeyMgmt .cckm = true := by
        unfold hasKeyMgmt
        rw [mem_eq_getLsbD]
        intro member
        obtain ⟨k, _, _, other, same⟩ := known _ member
        exact other (code_injective same)
      have covered : ∀ i, profile.params.keyMgmt.getLsbD i = true →
          ∃ k ∈ rsnKeyMgmtOrder, k.code = i := by
        intro i member
        obtain ⟨k, w, decodes, other, rfl⟩ := known i member
        have has : profile.params.hasKeyMgmt k = true :=
          (mem_eq_getLsbD _ _).trans member
        have listed : ∀ k ∈ rsnKeymgmts.map Prod.snd, k ≠ .cckm → k ≠ .ftPskSha384 →
            k ≠ .pskSha384 → k ∈ rsnKeyMgmtOrder := by decide
        refine ⟨k, listed k (mem_of_lookup decodes) other ?_ ?_, rfl⟩
        · rintro rfl
          exact Bool.false_ne_true (not_ft.symm.trans has)
        · rintro rfl
          exact Bool.false_ne_true (not_psk.symm.trans has)
      have same := insertAll_filter covered
      unfold rsnKeyMgmt
      rw [if_neg not_cckm]
      cases picked : rsnKeyMgmtOrder.filter profile.params.hasKeyMgmt with
      | nil =>
        refine absurd ?_ nonempty
        rw [← same]
        change insertAll 0#32
          ((rsnKeyMgmtOrder.filter profile.params.hasKeyMgmt).map code) = 0
        rw [picked]
        rfl
      | cons first others =>
        change insertAll 0#32 ((first :: others).map code) = _
        rw [← picked]
        exact same

theorem rsnUcast_agree :
    ReadsBack wlanCryptoRsnCipherToSuite wlanCryptoRsnSuiteToCipher (rsnUcast profile.params) := by
  have suites : ∀ c ∈ rsnUcastOrder, (wlanCryptoRsnCipherToSuite c).isSome := by decide
  intro c member
  obtain ⟨w, written⟩ := isSome_iff_exists.mp (suites c (mem_filter.mp member).1)
  exact ⟨w, written, rsnSuiteToCipher_suite written⟩

theorem rsnKeyMgmt_agree :
    ReadsBack wlanCryptoRsnKeymgmtToSuite wlanCryptoRsnSuiteToKeymgmt
      (rsnKeyMgmt profile.params) := by
  have suites : ∀ k ∈ cckm :: rsnKeyMgmtOrder,
      (wlanCryptoRsnKeymgmtToSuite k).isSome ∧ k ≠ .none := by decide
  intro k member
  have listed : k ∈ cckm :: rsnKeyMgmtOrder := by
    unfold rsnKeyMgmt at member
    by_cases cckm : profile.params.hasKeyMgmt .cckm = true
    · rw [if_pos cckm] at member
      exact mem_singleton.mp member ▸ mem_cons_self
    · rw [if_neg cckm] at member
      exact mem_cons_of_mem _ (mem_filter.mp member).1
  obtain ⟨w, written⟩ := isSome_iff_exists.mp (suites k listed).1
  exact ⟨w, written, rsnSuiteToKeymgmt_suite written (suites k listed).2⟩

theorem length_rsnUcast_le : (rsnUcast profile.params).length ≤ 5 := length_filter_le _ _

theorem length_rsnKeyMgmt_le : (rsnKeyMgmt profile.params).length ≤ 20 := by
  unfold rsnKeyMgmt
  by_cases cckm : profile.params.hasKeyMgmt .cckm = true
  · rw [if_pos cckm]
    decide
  · rw [if_neg cckm]
    exact length_filter_le _ _

variable (params : CryptoParams)

theorem length_rsnTail_le (pmksa : Option Pmksa) : (rsnTail params pmksa).length ≤ 34 := by
  have mgmt : (rsnMgmtOrder.filter params.hasMgmtCipher).length ≤ 4 := length_filter_le _ _
  unfold rsnTail
  cases params.mfpEnabled <;> cases pmksa <;>
    simp only [Bool.false_eq_true, if_true, if_false, length_append, length_addShort,
      length_addSuites, Vector.length_toList, length_nil] <;> omega

theorem length_element {id : Byte} {body : List Byte} (short : body.length < 256) :
    (element id body).length = 2 + ((element id body).getD 1 0).toNat := by
  change body.length + 1 + 1 = 2 + (BitVec.ofNat 8 body.length).toNat
  rw [BitVec.toNat_ofNat]
  omega

/-- The RSN element is always accepted; what comes back of the key managements is what was
written of them. -/
theorem rsnie_read (pmksa : Option Pmksa) :
    ∃ ie, wlanCryptoBuildRsnieWithPmksa (some profile.params) pmksa = some ie ∧
      ie.length = 2 + (ie.getD 1 0).toNat ∧
      ∀ previous, ∃ read, wlanCryptoRsnieCheck previous ie = (.success, read) ∧
        read.mcastcipherset = profile.params.mcastcipherset ∧
        read.ucastcipherset = profile.params.ucastcipherset ∧
        read.keyMgmt =
          insertAll 0 ((defaultedKeyMgmts (rsnKeyMgmt profile.params)).map code) ∧
        read.rsnCaps = profile.params.rsnCaps ∧
        (profile.params.mfpEnabled = true →
          read.mgmtcipherset = single 32 (profile.mgmt.getD .aesCmac).code) := by
  have groups : ∀ c ∈ dataCiphers, (wlanCryptoRsnCipherToSuite c).isSome := by decide
  have managements : ∀ c ∈ mgmtCiphers, (wlanCryptoRsnCipherToSuite c).isSome := by decide
  obtain ⟨group, written⟩ :=
    isSome_iff_exists.mp (groups profile.group profile.group_data)
  have known : ∀ c ∈ profile.mgmt, ∃ w, wlanCryptoRsnCipherToSuite c = some w :=
    fun c member => isSome_iff_exists.mp (managements c (profile.mgmt_data c member))
  have fewUcast := profile.length_rsnUcast_le
  have fewKeyMgmt := profile.length_rsnKeyMgmt_le
  have shortTail := length_rsnTail_le profile.params pmksa
  -- the parts of the body, from the last one backwards
  let caps := addShort profile.params.rsnCaps ++ rsnTail profile.params pmksa
  let keyMgmts := addCounted wlanCryptoRsnKeymgmtToSuite (rsnKeyMgmt profile.params) ++ caps
  let pairwise := addCounted wlanCryptoRsnCipherToSuite (rsnUcast profile.params) ++ keyMgmts
  let body := addSuites wlanCryptoRsnCipherToSuite [profile.group] ++ pairwise
  have capsLength : caps.length = 2 + (rsnTail profile.params pmksa).length :=
    length_append
  have keyMgmtsLength : keyMgmts.length =
      2 + (rsnKeyMgmt profile.params).length * 4 + caps.length := by
    rw [length_append, length_addCounted]
  have pairwiseLength : pairwise.length =
      2 + (rsnUcast profile.params).length * 4 + keyMgmts.length := by
    rw [length_append, length_addCounted]
  have bodyLength : body.length = 4 + pairwise.length := by
    rw [length_append]
    rfl
  refine ⟨element 48 (addShort 1 ++ body), ?_, length_element ?_, fun previous => ?_⟩
  · unfold wlanCryptoBuildRsnieWithPmksa
    rw [map_some, profile.rsnMcast_eq]
    simp only [body, pairwise, keyMgmts, caps, append_assoc]
  · rw [length_append, length_addShort]
    omega
  · obtain ⟨akmList, keyMgmtRead⟩ :=
      rsnReadKeyMgmt_written (by omega) profile.rsnKeyMgmt_agree
        { (zero.setAuthmode 6).setMcastCipher profile.group with
          ucastcipherset :=
            insertAll 0 ((rsnUcast profile.params).map Cipher.code) } caps
    have result := rsnieCheck_element body (by omega) previous
    rw [bodyLength, rsnReadMcast_written written, pairwiseLength,
      rsnReadUcast_written (by omega) profile.rsnUcast_ne_nil profile.rsnUcast_agree,
      keyMgmtsLength] at result
    have tail := rsnReadCaps_rsnTail known profile.mgmtOrder_eq pmksa
    rw [← capsLength] at tail
    refine ⟨_, result.trans (keyMgmtRead.trans (tail _)), ?_⟩
    cases mfp : profile.params.mfpEnabled with
    | true =>
      exact ⟨(BitVec.zero_or).trans profile.mcast_eq.symm, profile.rsnUcast_eq, rfl, rfl,
        fun _ => BitVec.zero_or⟩
    | false =>
      exact ⟨(BitVec.zero_or).trans profile.mcast_eq.symm, profile.rsnUcast_eq, rfl, rfl,
        fun enabled => absurd enabled Bool.false_ne_true⟩

/-- What comes back of the RSN element, with the sets of the parameters. -/
theorem rsnRoundTrip_iff (pmksa : Option Pmksa) :
    RsnRoundTrip profile.params pmksa ↔
      profile.params.hasKeyMgmt .ftPskSha384 = false ∧
        profile.params.hasKeyMgmt .pskSha384 = false := by
  obtain ⟨ie, built, length, accepted⟩ := profile.rsnie_read pmksa
  rw [← profile.rsnKeyMgmt_eq]
  constructor
  · rintro ⟨ie', built', -, accepted'⟩
    cases built.symm.trans built'
    obtain ⟨read, checked, -, -, keyMgmt, -⟩ := accepted .zero
    obtain ⟨read', checked', -, -, keyMgmt', -⟩ := accepted' .zero
    cases checked.symm.trans checked'
    exact keyMgmt.symm.trans keyMgmt'
  · intro same
    refine ⟨ie, built, length, fun previous => ?_⟩
    obtain ⟨read, checked, mcast, ucast, keyMgmt, caps, mgmt⟩ := accepted previous
    refine ⟨read, checked, mcast, ucast, keyMgmt.trans same, caps, fun mfp => ?_⟩
    rw [mgmt mfp, profile.mgmt_eq]
    cases profile.mgmt with
    | none => rfl
    | some c =>
      have members : insertAll (0 : BitVec 32) [c.code] ≠ 0 :=
        insertAll_ne_zero mem_cons_self c.code_lt 0
      rw [toList_some, map_singleton, if_neg members]
      exact BitVec.zero_or.symm

/-! ## The WPA element -/

theorem wpaMcast_eq : wpaMcast profile.params =
    if profile.group = .tkip ∨ profile.group = .aesCcm then [profile.group] else [] := by
  have data := profile.group_data
  unfold wpaMcast hasMcastCipher
  rw [profile.mcast_eq]
  revert data
  generalize profile.group = group
  revert group
  decide

theorem wpaUcast_eq_nil :
    wpaUcast params = [] ↔
      ¬ (params.hasUcastCipher .tkip = true ∨ params.hasUcastCipher .aesCcm = true) := by
  unfold wpaUcast
  rw [filter_eq_nil_iff]
  simp only [mem_cons, not_mem_nil, or_false, forall_eq_or_imp, forall_eq, not_or]
  exact And.comm

theorem wpaUcast_agree :
    ReadsBack wlanCryptoWpaCipherToSuite wlanCryptoWpaSuiteToCipher (wpaUcast params) := by
  have suites : ∀ c ∈ [Cipher.aesCcm, .tkip], (wlanCryptoWpaCipherToSuite c).isSome := by decide
  intro c member
  obtain ⟨w, written⟩ := isSome_iff_exists.mp (suites c (mem_filter.mp member).1)
  exact ⟨w, written, wpaSuiteToCipher_suite written⟩

theorem wpaKeyMgmt_agree :
    ReadsBack wlanCryptoWpaKeymgmtToSuite wlanCryptoWpaSuiteToKeymgmt [wpaKeyMgmt params] := by
  have known : wpaKeyMgmt params ∈ [ieee8021x, .psk, .cckm, .none] := by
    unfold wpaKeyMgmt
    cases params.hasKeyMgmt .ieee8021x <;> cases params.hasKeyMgmt .psk <;>
      cases params.hasKeyMgmt .cckm <;> decide
  have suites : ∀ k ∈ [ieee8021x, .psk, .cckm, .none],
      (wlanCryptoWpaKeymgmtToSuite k).isSome := by decide
  intro k member
  cases mem_singleton.mp member
  obtain ⟨w, written⟩ := isSome_iff_exists.mp (suites _ known)
  exact ⟨w, written, wpaSuiteToKeymgmt_suite written⟩

/-- What a WPA element has behind its head. -/
def wpaBody (params : CryptoParams) : List Byte :=
  addSuites wlanCryptoWpaCipherToSuite (wpaMcast params) ++
    (addCounted wlanCryptoWpaCipherToSuite (wpaUcast params) ++
      (addCounted wlanCryptoWpaKeymgmtToSuite [wpaKeyMgmt params] ++ wpaCaps params))

theorem buildWpaie_eq :
    wlanCryptoBuildWpaie (some params) =
      some (element 221 (addSelector (wlanWpaSel 0x01) ++ addShort 1 ++ wpaBody params)) := by
  unfold wlanCryptoBuildWpaie wpaBody
  rw [map_some]
  simp

theorem length_wpaCaps_le : (wpaCaps params).length ≤ 2 := by
  unfold wpaCaps
  by_cases present : params.rsnCaps ≠ 0 ∧ params.rsnCaps ≠ 0x01
  · rw [if_pos present, length_addShort]
  · rw [if_neg present]
    exact Nat.zero_le 2

theorem length_wpaBody : 8 ≤ (wpaBody params).length ∧ (wpaBody params).length + 6 < 256 := by
  have group : (wpaMcast params).length ≤ 1 := by
    unfold wpaMcast
    cases params.hasMcastCipher .tkip <;> cases params.hasMcastCipher .aesCcm <;> decide
  have pairwise : (wpaUcast params).length ≤ 2 := length_filter_le _ _
  have caps := length_wpaCaps_le params
  unfold wpaBody
  simp only [length_append, length_addSuites, length_addCounted, length_singleton]
  omega

/-- The WPA element is read back when both lists of ciphers have something in them. -/
theorem wpaRoundTrip_of_ciphers (group : profile.group = .tkip ∨ profile.group = .aesCcm)
    (pairwise : wpaUcast profile.params ≠ []) : WpaRoundTrip profile.params := by
  have bounds := length_wpaBody profile.params
  have mcast : wpaMcast profile.params = [profile.group] := by rw [wpaMcast_eq, if_pos group]
  obtain ⟨w, written⟩ : ∃ w, wlanCryptoWpaCipherToSuite profile.group = some w := by
    rcases group with same | same <;> rw [same] <;> exact ⟨_, rfl⟩
  let keyMgmts := addCounted wlanCryptoWpaKeymgmtToSuite [wpaKeyMgmt profile.params] ++
    wpaCaps profile.params
  let ciphers := addCounted wlanCryptoWpaCipherToSuite (wpaUcast profile.params) ++ keyMgmts
  have keyMgmtsLength : keyMgmts.length =
      2 + [wpaKeyMgmt profile.params].length * 4 + (wpaCaps profile.params).length := by
    rw [length_append, length_addCounted]
  have ciphersLength : ciphers.length =
      2 + (wpaUcast profile.params).length * 4 + keyMgmts.length := by
    rw [length_append, length_addCounted]
  have body : wpaBody profile.params =
      addSuites wlanCryptoWpaCipherToSuite [profile.group] ++ ciphers := by
    unfold wpaBody
    rw [mcast]
  have bodyLength : (wpaBody profile.params).length = 4 + ciphers.length := by
    rw [body, length_append]
    rfl
  refine ⟨_, buildWpaie_eq profile.params, length_element ?_, fun previous => ?_⟩
  · rw [length_append, length_append, length_addSelector, length_addShort]
    omega
  · have result := wpaieCheck_element bounds.2 bounds.1 previous
    have part : (addSuites wlanCryptoWpaCipherToSuite [profile.group] ++ ciphers).length =
        4 + ciphers.length := body ▸ bodyLength
    rw [body, part, wpaReadMcast_written written, ciphersLength,
      wpaReadUcast_written (by omega) pairwise (wpaUcast_agree _) _ (by rw [keyMgmtsLength]; omega),
      keyMgmtsLength, wpaReadKeyMgmt_written (Nat.lt_of_lt_of_le Nat.one_lt_two (by decide))
        (wpaKeyMgmt_agree _)] at result
    obtain ⟨rsnCaps, caps⟩ := wpaReadCaps_succeeds
      { (previous.setAuthmode 5).setMcastCipher profile.group with
        ucastcipherset :=
          insertAll previous.ucastcipherset ((wpaUcast profile.params).map Cipher.code)
        keyMgmt :=
          insertAll previous.keyMgmt ([wpaKeyMgmt profile.params].map code) }
      (wpaCaps profile.params) (wpaCaps profile.params).length
    rw [body]
    refine ⟨_, result.trans caps, ?_, rfl, rfl⟩
    rw [mcast]
    rfl

/-- Without a group cipher in the element the count of the pairwise ciphers stands where the
group cipher is read. -/
theorem wpaReadMcast_nil (read : CryptoParams) (params : CryptoParams) (len : Nat)
    (empty : wpaMcast params = []) : wpaReadMcast read (wpaBody params) len = (.eInval, read) := by
  have unknown : wlanCryptoWpaSuiteToCipher (leRead4 (wpaBody params)) = Option.none := by
    unfold wpaBody wpaUcast
    rw [empty]
    cases tkip : params.hasUcastCipher .tkip <;> cases ccm : params.hasUcastCipher .aesCcm <;>
      simp only [filter_cons, filter_nil, tkip, ccm, if_true, if_false, Bool.false_eq_true] <;> rfl
  unfold wpaReadMcast
  rw [unknown]

/-- What comes back of the WPA element. -/
theorem wpaRoundTrip_iff :
    WpaRoundTrip profile.params ↔
      (profile.group = .tkip ∨ profile.group = .aesCcm) ∧
        (profile.params.hasUcastCipher .tkip = true ∨
          profile.params.hasUcastCipher .aesCcm = true) := by
  constructor
  · rintro ⟨ie, built, -, accepted⟩
    cases (buildWpaie_eq profile.params).symm.trans built
    have bounds := length_wpaBody profile.params
    obtain ⟨read, checked, -⟩ := accepted .zero
    rw [wpaieCheck_element bounds.2 bounds.1] at checked
    by_cases group : profile.group = .tkip ∨ profile.group = .aesCcm
    · refine ⟨group, ?_⟩
      by_contra none
      obtain ⟨w, written⟩ : ∃ w, wlanCryptoWpaCipherToSuite profile.group = some w := by
        rcases group with same | same <;> rw [same] <;> exact ⟨_, rfl⟩
      have mcast : wpaMcast profile.params = [profile.group] := by rw [wpaMcast_eq, if_pos group]
      unfold wpaBody at checked
      rw [mcast, (wpaUcast_eq_nil _).mpr none, length_append, length_addSuites,
        length_singleton, wpaReadMcast_written written] at checked
      cases checked
    · rw [wpaReadMcast_nil _ _ _ (by rw [wpaMcast_eq, if_neg group])] at checked
      cases checked
  · rintro ⟨group, pairwise⟩
    exact profile.wpaRoundTrip_of_ciphers group fun empty =>
      (wpaUcast_eq_nil profile.params).mp empty pairwise

end Profile

/-- The RSN element gives back the whole parameter set exactly when neither of the two key
managements with SHA-384 pre-shared keys is in it; the WPA element gives back what was
written exactly when the group cipher and some pairwise cipher have a WPA selector. -/
theorem suites_recovered_iff (profile : Profile) (pmksa : Option Pmksa) :
    (RsnRoundTrip profile.params pmksa ↔
        profile.params.hasKeyMgmt .ftPskSha384 = false ∧
          profile.params.hasKeyMgmt .pskSha384 = false) ∧
      (WpaRoundTrip profile.params ↔
        (profile.group = .tkip ∨ profile.group = .aesCcm) ∧
          (profile.params.hasUcastCipher .tkip = true ∨
            profile.params.hasUcastCipher .aesCcm = true)) :=
  ⟨profile.rsnRoundTrip_iff pmksa, profile.wpaRoundTrip_iff⟩

/-- A vdev that is configured for PSK with SHA-384, with CCMP for all frames. -/
def pskSha384Profile : Profile where
  params :=
    { zero with
      ucastcipherset := 0x08
      mcastcipherset := 0x08
      keyMgmt := 0x04000000 }
  group := .aesCcm
  mgmt := none
  group_data := by decide
  mcast_eq := by decide
  ucast_nonempty := by decide
  ucast_data := by
    have single : (0x08 : BitVec 32) = single 32 3 := by decide
    intro i member
    rw [single, getLsbD_single, decide_eq_true_eq] at member
    exact ⟨.aesCcm, by decide, member.2⟩
  keyMgmt_known := by
    have single : (0x04000000 : BitVec 32) = single 32 26 := by decide
    refine .inr ⟨by decide, fun i member => ?_⟩
    rw [single, getLsbD_single, decide_eq_true_eq] at member
    exact ⟨.pskSha384, wlanRsnSel 20, by decide, by decide, member.2⟩
  mgmt_data := by
    intro c member
    cases member
  mgmt_eq := by decide

/-- Its element advertises no key management and is read as one for 802.1X. -/
theorem not_rsnRoundTrip_pskSha384Profile : ¬ RsnRoundTrip pskSha384Profile.params none := by
  rintro ⟨ie, built, -, accepted⟩
  obtain ⟨read, checked, -, -, keyMgmt, -⟩ := accepted .zero
  have recovered : (wlanCryptoBuildRsnieWithPmksa (some pskSha384Profile.params) none).map
      (fun ie => (wlanCryptoRsnieCheck .zero ie).2.keyMgmt) = some 1 := by
    decide +kernel
  rw [built, map_some, checked] at recovered
  have zero : read.keyMgmt = 1 := some.inj recovered
  exact absurd (keyMgmt.symm.trans zero) (by decide)

end Sm8650.Crypto
