import Sm8650.Crypto.Element

/-!
# WPA and RSN elements read back

What the checkers recover from the elements that the builders write. Each part of an
element is read by one function of the checker, and the facts below go from the last part
to the first.
-/

namespace Sm8650.Crypto

open Data List FlagSet

/-! ## Bytes -/

@[simp]
theorem length_addShort (value : BitVec 16) : (addShort value).length = 2 := rfl

@[simp]
theorem length_addSelector (sel : Suite) : (addSelector sel).length = 4 := rfl

theorem leRead2_addShort (value : BitVec 16) (rest : List Byte) :
    leRead2 (addShort value ++ rest) = value := by
  apply BitVec.eq_of_toNat_eq
  simp only [leRead2, addShort, cons_append, take_succ_cons, leValue, BitVec.toNat_ofNat,
    BitVec.toNat_setWidth, BitVec.toNat_ushiftRight]
  omega

theorem leRead4_addSelector (sel : Suite) (rest : List Byte) :
    leRead4 (addSelector sel ++ rest) = sel := by
  apply BitVec.eq_of_toNat_eq
  simp only [leRead4, addSelector, cons_append, take_succ_cons, leValue,
    BitVec.toNat_ofNat, BitVec.toNat_setWidth, BitVec.toNat_ushiftRight]
  omega

theorem leRead2_count {n : Nat} (small : n < 256) (rest : List Byte) :
    (leRead2 (BitVec.ofNat 8 n :: 0 :: rest)).toNat = n := by
  have zero : (0 : Byte).toNat = 0 := rfl
  simp only [leRead2, take_succ_cons, leValue, BitVec.toNat_ofNat]
  omega

section Suites

variable {α : Type} {toSuite : α → Option Suite} {toCode : Suite → Option α}

theorem addSuites_cons (code : α) (codes : List α) :
    addSuites toSuite (code :: codes) =
      addSelector ((toSuite code).getD 0xffffffff) ++ addSuites toSuite codes :=
  flatMap_cons

@[simp]
theorem length_addSuites (codes : List α) :
    (addSuites toSuite codes).length = codes.length * 4 := by
  induction codes with
  | nil => rfl
  | cons code codes ih =>
    rw [addSuites_cons, length_append, length_addSelector, length_cons]
    omega

@[simp]
theorem length_addCounted (codes : List α) :
    (addCounted toSuite codes).length = 2 + codes.length * 4 := by
  rw [addCounted, length_append, length_addSuites]
  rfl

theorem leRead4_addSuites_cons {code : α} {w : Suite} (written : toSuite code = some w)
    (codes : List α) (rest : List Byte) :
    leRead4 (addSuites toSuite (code :: codes) ++ rest) = w := by
  rw [addSuites_cons, append_assoc, leRead4_addSelector, written]
  rfl

/-- The codes that the decoder reads back from their selectors. -/
def ReadsBack (toSuite : α → Option Suite) (toCode : Suite → Option α) (codes : List α) : Prop :=
  ∀ code ∈ codes, ∃ w, toSuite code = some w ∧ toCode w = some code

theorem readKnown_addSuites {σ : Type} (record : σ → α → σ) {codes : List α}
    (agree : ReadsBack toSuite toCode codes) (state : σ) (rest : List Byte) :
    readKnown toCode record codes.length state (addSuites toSuite codes ++ rest) =
      codes.foldl record state := by
  induction codes generalizing state with
  | nil => rfl
  | cons code codes ih =>
    obtain ⟨w, written, read⟩ := agree code mem_cons_self
    rw [length_cons, readKnown, leRead4_addSuites_cons written, read]
    exact ih (fun later member => agree later (mem_cons_of_mem _ member)) (record state code)

theorem readStrict_addSuites {σ : Type} (record : σ → α → σ) {codes : List α}
    (agree : ReadsBack toSuite toCode codes) (state : σ) (rest : List Byte) :
    readStrict toCode record codes.length state (addSuites toSuite codes ++ rest) =
      (.success, codes.foldl record state) := by
  induction codes generalizing state with
  | nil => rfl
  | cons code codes ih =>
    obtain ⟨w, written, read⟩ := agree code mem_cons_self
    rw [length_cons, readStrict, leRead4_addSuites_cons written, read]
    exact ih (fun later member => agree later (mem_cons_of_mem _ member)) (record state code)

/-- A counted list: its count, its selectors and what comes behind it. -/
theorem addCounted_parts (toSuite : α → Option Suite) {codes : List α} (few : codes.length < 256)
    (rest : List Byte) :
    (leRead2 (addCounted toSuite codes ++ rest)).toNat = codes.length ∧
      (addCounted toSuite codes ++ rest).drop 2 = addSuites toSuite codes ++ rest ∧
      (addCounted toSuite codes ++ rest).drop (2 + codes.length * 4) = rest :=
  ⟨leRead2_count few _, rfl, drop_left' (length_addCounted codes)⟩

end Suites

/-! ## Records -/

@[simp]
theorem foldl_setUcastCipher (codes : List Cipher) (params : CryptoParams) :
    codes.foldl .setUcastCipher params =
      { params with
        ucastcipherset :=
          insertAll params.ucastcipherset (codes.map Cipher.code) } := by
  induction codes generalizing params with
  | nil => rfl
  | cons code codes ih => exact ih (params.setUcastCipher code)

@[simp]
theorem foldl_setKeyMgmt (codes : List KeyMgmt) (params : CryptoParams) :
    codes.foldl .setKeyMgmt params =
      { params with
        keyMgmt := insertAll params.keyMgmt (codes.map KeyMgmt.code) } := by
  induction codes generalizing params with
  | nil => rfl
  | cons code codes ih => exact ih (params.setKeyMgmt code)

variable {codes : List Cipher}

theorem insertAll_ciphers_ne_zero (nonempty : codes ≠ []) (set : BitVec 32)
    : insertAll set (codes.map Cipher.code) ≠ 0 := by
  obtain ⟨code, member⟩ := exists_mem_of_ne_nil codes nonempty
  exact insertAll_ne_zero (mem_map_of_mem member) code.code_lt _

/-- The key management loop leaves everything but the set and the order alone. -/
theorem foldl_rsnRecordKeyMgmt (codes : List KeyMgmt) (state : CryptoParams × Nat) :
    ∃ akmList, (codes.foldl rsnRecordKeyMgmt state).1 =
      { state.1 with
        keyMgmt := insertAll state.1.keyMgmt (codes.map KeyMgmt.code), akmList } := by
  induction codes generalizing state with
  | nil => exact ⟨_, rfl⟩
  | cons code codes ih =>
    obtain ⟨akmList, read⟩ := ih (rsnRecordKeyMgmt state code)
    refine ⟨akmList, read.trans ?_⟩
    unfold rsnRecordKeyMgmt CryptoParams.storeAkm
    by_cases full : state.2 ≥ keyMgmtMax
    · rw [if_pos full]
      rfl
    · rw [if_neg full]
      rfl

/-! ## The parts of an RSN element -/

variable {mgmt : Option Cipher}

/-- The management cipher that is read back: the one that is written, CMAC for none. -/
theorem rsnReadBip_written {read : CryptoParams} (mfp : read.mfpEnabled = true)
    (known : ∀ c ∈ mgmt, ∃ w, wlanCryptoRsnCipherToSuite c = some w) :
    rsnReadBip read (addSuites wlanCryptoRsnCipherToSuite mgmt.toList)
        (addSuites wlanCryptoRsnCipherToSuite mgmt.toList).length =
      (.success, read.setMgmtCipher (some (mgmt.getD .aesCmac))) := by
  cases mgmt with
  | none =>
    unfold rsnReadBip
    rw [length_addSuites, if_pos mfp]
    rfl
  | some c =>
    obtain ⟨w, written⟩ := known c rfl
    have selector := leRead4_addSuites_cons written [] []
    rw [append_nil] at selector
    unfold rsnReadBip
    rw [Option.toList_some, selector, rsnSuiteToCipher_suite written]
    rfl

/-- A PMK list with one entry. -/
theorem rsnReadPmkid_one (params : CryptoParams) (pmksa : Pmksa) (rest : List Byte) :
    rsnReadPmkid params (addShort 1 ++ pmksa.pmkid.toList ++ rest) (18 + rest.length) =
      rsnReadBip params rest rest.length := by
  have behind : (addShort 1 ++ pmksa.pmkid.toList ++ rest).drop (2 + 1 * 16) = rest :=
    drop_left' (by rw [length_append, length_addShort, Vector.length_toList])
  have count : (leRead2 (addShort 1 ++ pmksa.pmkid.toList ++ rest)).toNat = 1 := by rfl
  unfold rsnReadPmkid
  rw [if_pos (by omega)]
  simp only [count]
  rw [if_pos ⟨by decide, by omega⟩, if_pos (by omega)]
  congr 1
  omega

/-- An empty PMK list. -/
theorem rsnReadPmkid_zero (params : CryptoParams) (rest : List Byte) :
    rsnReadPmkid params (addShort 0 ++ rest) (2 + rest.length) =
      rsnReadBip params rest rest.length := by
  have count : (leRead2 (addShort 0 ++ rest)).toNat = 0 := by rfl
  unfold rsnReadPmkid
  rw [if_pos (by omega)]
  simp only [count]
  rw [if_neg (by simp), if_neg (by simp)]
  congr 1
  omega

/-- What follows the capabilities is read back as it was written. -/
theorem rsnReadPmkid_rsnTail {params read : CryptoParams} (caps : read.rsnCaps = params.rsnCaps)
    (known : ∀ c ∈ mgmt, ∃ w, wlanCryptoRsnCipherToSuite c = some w)
    (emitted : rsnMgmtOrder.filter params.hasMgmtCipher = mgmt.toList) (pmksa : Option Pmksa) :
    rsnReadPmkid read (rsnTail params pmksa) (rsnTail params pmksa).length =
      (.success,
        if params.mfpEnabled then read.setMgmtCipher (some (mgmt.getD .aesCmac)) else read) := by
  have same : read.mfpEnabled = params.mfpEnabled := by
    rw [CryptoParams.mfpEnabled, CryptoParams.mfpEnabled, caps]
  unfold rsnTail
  cases mfp : params.mfpEnabled with
  | true =>
    have bip := rsnReadBip_written (same.trans mfp) known
    cases pmksa with
    | none =>
      rw [if_pos rfl, if_pos rfl, emitted, ← bip, ← rsnReadPmkid_zero, length_append,
        length_addShort]
    | some pmksa =>
      rw [if_pos rfl, if_pos rfl, emitted, ← bip, ← rsnReadPmkid_one read pmksa,
        length_append, length_append, length_addShort, Vector.length_toList]
  | false =>
    have bip : rsnReadBip read [] 0 = (.success, read) := by
      unfold rsnReadBip
      rw [same, mfp]
      rfl
    cases pmksa with
    | none => exact bip
    | some pmksa =>
      have list := rsnReadPmkid_one read pmksa []
      have length : (addShort 1 ++ pmksa.pmkid.toList).length = 18 := by
        rw [length_append, length_addShort, Vector.length_toList]
      rw [append_nil] at list
      rw [if_neg Bool.false_ne_true]
      rw [length]
      exact list.trans bip

theorem rsnReadCaps_written (read : CryptoParams) (caps : BitVec 16) (rest : List Byte) :
    rsnReadCaps read (addShort caps ++ rest) (2 + rest.length) =
      rsnReadPmkid { read with rsnCaps := caps } rest rest.length := by
  have behind : (addShort caps ++ rest).drop 2 = rest := drop_left' (length_addShort caps)
  unfold rsnReadCaps
  rw [if_pos (by omega), leRead2_addShort, behind, Nat.add_sub_cancel_left]

/-- The capabilities and what follows them, as a whole. -/
theorem rsnReadCaps_rsnTail {params : CryptoParams}
    (known : ∀ c ∈ mgmt, ∃ w, wlanCryptoRsnCipherToSuite c = some w)
    (emitted : rsnMgmtOrder.filter params.hasMgmtCipher = mgmt.toList) (pmksa : Option Pmksa)
    (read : CryptoParams) :
    rsnReadCaps read (addShort params.rsnCaps ++ rsnTail params pmksa)
        (2 + (rsnTail params pmksa).length) =
      (.success,
        if params.mfpEnabled then
          { read with rsnCaps := params.rsnCaps }.setMgmtCipher (some (mgmt.getD .aesCmac))
        else { read with rsnCaps := params.rsnCaps }) := by
  have caps : { read with rsnCaps := params.rsnCaps }.rsnCaps = params.rsnCaps := rfl
  rw [rsnReadCaps_written, rsnReadPmkid_rsnTail caps known emitted]

/-- The key managements an element without any stands for. -/
def defaultedKeyMgmts : List KeyMgmt → List KeyMgmt
  | [] => [.ieee8021x]
  | codes => codes

theorem rsnReadKeyMgmt_written {codes : List KeyMgmt} (few : codes.length < 256)
    (agree : ReadsBack wlanCryptoRsnKeymgmtToSuite wlanCryptoRsnSuiteToKeymgmt codes)
    (read : CryptoParams) (rest : List Byte) :
    ∃ akmList,
      rsnReadKeyMgmt read (addCounted wlanCryptoRsnKeymgmtToSuite codes ++ rest)
          (2 + codes.length * 4 + rest.length) =
        rsnReadCaps
          { read with
            keyMgmt :=
              insertAll read.keyMgmt ((defaultedKeyMgmts codes).map KeyMgmt.code),
            akmList }
          rest rest.length := by
  obtain ⟨count, suites, behind⟩ := addCounted_parts wlanCryptoRsnKeymgmtToSuite few rest
  unfold rsnReadKeyMgmt
  rw [if_neg (by omega), if_neg (by omega)]
  simp only [count]
  cases codes with
  | nil =>
    have nonempty : (read.setKeyMgmt .ieee8021x).keyMgmt ≠ 0 :=
      @insertAll_ne_zero 32 [0] 0 mem_cons_self (by decide) read.keyMgmt
    refine ⟨read.akmList, ?_⟩
    unfold rsnCheckKeyMgmt
    rw [if_neg (by simp), if_neg nonempty]
    congr 1
    simp
  | cons code codes =>
    obtain ⟨akmList, known⟩ := foldl_rsnRecordKeyMgmt (code :: codes) (read, 0)
    have nonempty : insertAll read.keyMgmt ((code :: codes).map KeyMgmt.code) ≠ 0 :=
      insertAll_ne_zero mem_cons_self code.code_lt read.keyMgmt
    refine ⟨akmList, ?_⟩
    rw [if_pos (by simp), if_neg (by omega), suites, readKnown_addSuites _ agree, known]
    unfold rsnCheckKeyMgmt
    rw [if_neg nonempty]
    congr 1
    omega

theorem rsnReadUcast_written (few : codes.length < 256) (nonempty : codes ≠ [])
    (agree : ReadsBack wlanCryptoRsnCipherToSuite wlanCryptoRsnSuiteToCipher codes)
    (read : CryptoParams) (rest : List Byte) :
    rsnReadUcast read (addCounted wlanCryptoRsnCipherToSuite codes ++ rest)
        (2 + codes.length * 4 + rest.length) =
      rsnReadKeyMgmt
        { read with
          ucastcipherset :=
            insertAll read.ucastcipherset (codes.map Cipher.code) }
        rest rest.length := by
  obtain ⟨count, suites, behind⟩ := addCounted_parts wlanCryptoRsnCipherToSuite few rest
  have members := insertAll_ciphers_ne_zero nonempty read.ucastcipherset
  unfold rsnReadUcast
  rw [if_neg (by omega), if_neg (by omega)]
  simp only [count]
  rw [if_pos (mt length_eq_zero_iff.mp nonempty), if_neg (by omega), suites,
    readKnown_addSuites _ agree, foldl_setUcastCipher]
  unfold rsnCheckUcast
  rw [if_neg members]
  congr 1
  omega

theorem rsnReadMcast_written {c : Cipher} {w : Suite}
    (written : wlanCryptoRsnCipherToSuite c = some w) (read : CryptoParams) (rest : List Byte) :
    rsnReadMcast read (addSuites wlanCryptoRsnCipherToSuite [c] ++ rest) (4 + rest.length) =
      rsnReadUcast (read.setMcastCipher c) rest rest.length := by
  have selector := leRead4_addSuites_cons written [] rest
  have behind : (addSuites wlanCryptoRsnCipherToSuite [c] ++ rest).drop 4 = rest :=
    drop_left' (length_addSuites [c])
  have members : (read.setMcastCipher c).mcastcipherset ≠ 0 :=
    @insertAll_ne_zero 32 [c.code] c.code mem_cons_self c.code_lt read.mcastcipherset
  unfold rsnReadMcast
  rw [if_neg (by omega), if_neg (by omega), selector, rsnSuiteToCipher_suite written]
  dsimp only
  rw [if_neg members, behind, Nat.add_sub_cancel_left]

/-- The head of an RSN element. -/
theorem rsnieCheck_element (body : List Byte) (short : body.length + 2 < 256)
    (previous : CryptoParams) :
    wlanCryptoRsnieCheck previous (element 48 (addShort 1 ++ body)) =
      rsnReadMcast (CryptoParams.zero.setAuthmode 6) body body.length := by
  have length : ((element 48 (addShort 1 ++ body)).getD 1 0).toNat = 2 + body.length := by
    change (BitVec.ofNat 8 (addShort 1 ++ body).length).toNat = _
    rw [length_append, length_addShort, BitVec.toNat_ofNat, Nat.mod_eq_of_lt (by omega)]
  have version : leRead2 ((element 48 (addShort 1 ++ body)).drop 2) = 1 :=
    leRead2_addShort 1 body
  have behind : (element 48 (addShort 1 ++ body)).drop 4 = body := rfl
  unfold wlanCryptoRsnieCheck
  simp only [length, version, behind]
  rw [if_neg (by omega), if_neg (by simp), Nat.add_sub_cancel_left]

/-! ## The parts of a WPA element -/

theorem wpaReadCaps_succeeds (read : CryptoParams) (frm : List Byte) (len : Nat) :
    ∃ rsnCaps, wpaReadCaps read frm len = (.success, { read with rsnCaps }) := by
  by_cases present : 2 ≤ len
  · exact ⟨leRead2 frm, if_pos present⟩
  · exact ⟨read.rsnCaps, if_neg present⟩

theorem wpaReadKeyMgmt_written {codes : List KeyMgmt} (few : codes.length < 256)
    (agree : ReadsBack wlanCryptoWpaKeymgmtToSuite wlanCryptoWpaSuiteToKeymgmt codes)
    (read : CryptoParams) (rest : List Byte) :
    wpaReadKeyMgmt read (addCounted wlanCryptoWpaKeymgmtToSuite codes ++ rest)
        (2 + codes.length * 4 + rest.length) =
      wpaReadCaps
        { read with keyMgmt := insertAll read.keyMgmt (codes.map KeyMgmt.code) }
        rest rest.length := by
  obtain ⟨count, suites, behind⟩ := addCounted_parts wlanCryptoWpaKeymgmtToSuite few rest
  unfold wpaReadKeyMgmt
  simp only [count]
  rw [if_neg (by omega), suites, readStrict_addSuites _ agree, foldl_setKeyMgmt]
  dsimp only
  congr 1
  omega

theorem wpaReadUcast_written (few : codes.length < 256) (nonempty : codes ≠ [])
    (agree : ReadsBack wlanCryptoWpaCipherToSuite wlanCryptoWpaSuiteToCipher codes)
    (read : CryptoParams) {rest : List Byte} (followed : 2 ≤ rest.length) :
    wpaReadUcast read (addCounted wlanCryptoWpaCipherToSuite codes ++ rest)
        (2 + codes.length * 4 + rest.length) =
      wpaReadKeyMgmt
        { read with
          ucastcipherset :=
            insertAll read.ucastcipherset (codes.map Cipher.code) }
        rest rest.length := by
  obtain ⟨count, suites, behind⟩ := addCounted_parts wlanCryptoWpaCipherToSuite few rest
  have members := insertAll_ciphers_ne_zero nonempty read.ucastcipherset
  unfold wpaReadUcast
  simp only [count]
  rw [if_neg (by omega), suites, readStrict_addSuites _ agree, foldl_setUcastCipher]
  dsimp only
  rw [if_neg members]
  congr 1
  omega

theorem wpaReadMcast_written {c : Cipher} {w : Suite}
    (written : wlanCryptoWpaCipherToSuite c = some w) (read : CryptoParams) (rest : List Byte) :
    wpaReadMcast read (addSuites wlanCryptoWpaCipherToSuite [c] ++ rest) (4 + rest.length) =
      wpaReadUcast (read.setMcastCipher c) rest rest.length := by
  have selector := leRead4_addSuites_cons written [] rest
  have behind : (addSuites wlanCryptoWpaCipherToSuite [c] ++ rest).drop 4 = rest :=
    drop_left' (length_addSuites [c])
  unfold wpaReadMcast
  rw [selector, wpaSuiteToCipher_suite written, behind, Nat.add_sub_cancel_left]

/-- The head of a WPA element. -/
theorem wpaieCheck_element {body : List Byte} (short : body.length + 6 < 256)
    (long : 8 ≤ body.length) (previous : CryptoParams) :
    wlanCryptoWpaieCheck previous
        (element 221 (addSelector (wlanWpaSel 0x01) ++ addShort 1 ++ body)) =
      wpaReadMcast (previous.setAuthmode 5) body body.length := by
  have length : ((element 221 (addSelector (wlanWpaSel 0x01) ++ addShort 1 ++ body)).getD
      1 0).toNat = 6 + body.length := by
    change (BitVec.ofNat 8 (addSelector (wlanWpaSel 0x01) ++ addShort 1 ++ body).length).toNat = _
    rw [length_append, length_append, length_addSelector, length_addShort,
      BitVec.toNat_ofNat, Nat.mod_eq_of_lt (by omega)]
  have version : leRead2 ((element 221 (addSelector (wlanWpaSel 0x01) ++ addShort 1 ++
      body)).drop 6) = 1 := leRead2_addShort 1 body
  unfold wlanCryptoWpaieCheck
  simp only [version]
  rw [if_neg (by omega), if_neg (by simp)]
  congr 1
  omega

end Sm8650.Crypto
