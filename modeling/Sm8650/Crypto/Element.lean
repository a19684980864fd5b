import Sm8650.Crypto.Suites

/-!
# WPA and RSN elements

`wlan_crypto_build_wpaie`, `wlan_crypto_build_rsnie_with_pmksa`, `wlan_crypto_wpaie_check`
and `wlan_crypto_rsnie_check`. A checker walks the element with a cursor and the number of
bytes that are left; every subtraction from that number follows a test that it is large
enough, and what a read takes from behind the element is 0.
-/

namespace Sm8650.Crypto

open Data FlagSet

/-! ## Crypto parameters -/

/-- `struct wlan_crypto_params`, with the fields the elements carry. -/
structure CryptoParams where
  authmodeset : BitVec 32
  ucastcipherset : BitVec 32
  mcastcipherset : BitVec 32
  mgmtcipherset : BitVec 32
  keyMgmt : BitVec 32
  rsnCaps : BitVec 16
  akmList : List Nat
deriving DecidableEq, Repr

/-- The record after `qdf_mem_zero`. -/
def CryptoParams.zero : CryptoParams := ⟨0, 0, 0, 0, 0, 0, List.replicate keyMgmtMax 0⟩

namespace CryptoParams

/-- `SET_UCAST_CIPHER`. -/
def setUcastCipher (params : CryptoParams) (c : Cipher) : CryptoParams :=
  { params with ucastcipherset := insert params.ucastcipherset c.code }

/-- `SET_MCAST_CIPHER`. -/
def setMcastCipher (params : CryptoParams) (c : Cipher) : CryptoParams :=
  { params with mcastcipherset := insert params.mcastcipherset c.code }

/-- `SET_KEY_MGMT`. -/
def setKeyMgmt (params : CryptoParams) (k : KeyMgmt) : CryptoParams :=
  { params with keyMgmt := insert params.keyMgmt k.code }

/-- `SET_MGMT_CIPHER` of a conversion's result. The code shifts by -1 when the conversion
failed; an arm64 shift takes that modulo 32. -/
def setMgmtCipher (params : CryptoParams) (c : Option Cipher) : CryptoParams :=
  { params with
    mgmtcipherset := insert params.mgmtcipherset ((c.map Cipher.code).getD 31) }

/-- `SET_AUTHMODE`. -/
def setAuthmode (params : CryptoParams) (mode : Nat) : CryptoParams :=
  { params with authmodeset := insert params.authmodeset mode }

/-- `HAS_UCAST_CIPHER`. -/
def hasUcastCipher (params : CryptoParams) (c : Cipher) : Bool :=
  mem params.ucastcipherset c.code

/-- `HAS_MCAST_CIPHER`. -/
def hasMcastCipher (params : CryptoParams) (c : Cipher) : Bool :=
  mem params.mcastcipherset c.code

/-- `HAS_MGMT_CIPHER`. -/
def hasMgmtCipher (params : CryptoParams) (c : Cipher) : Bool :=
  mem params.mgmtcipherset c.code

/-- `HAS_KEY_MGMT`. -/
def hasKeyMgmt (params : CryptoParams) (k : KeyMgmt) : Bool :=
  mem params.keyMgmt k.code

/-- Whether `rsn_caps` has `WLAN_CRYPTO_RSN_CAP_MFP_ENABLED`. -/
def mfpEnabled (params : CryptoParams) : Bool := params.rsnCaps &&& 0x80 != 0

/-- `wlan_crypto_store_akm_list_in_order`. -/
def storeAkm (params : CryptoParams) (k : KeyMgmt) (akmIndex : Nat) : CryptoParams :=
  if akmIndex ≥ keyMgmtMax then params
  else { params with akmList := params.akmList.set akmIndex k.code }

end CryptoParams

/-- The `pmkid` of a `struct wlan_crypto_pmksa`. -/
structure Pmksa where
  pmkid : Vector Byte 16

inductive QdfStatus where
  | success
  | eInval
deriving DecidableEq, Repr

/-! ## Bytes -/

/-- `WLAN_CRYPTO_ADDSHORT`. -/
def addShort (value : BitVec 16) : List Byte := [value.setWidth 8, (value >>> 8).setWidth 8]

/-- `WLAN_CRYPTO_ADDSELECTOR`, which copies the word as it lies in memory. -/
def addSelector (sel : Suite) : List Byte :=
  [sel.setWidth 8, (sel >>> 8).setWidth 8, (sel >>> 16).setWidth 8, (sel >>> 24).setWidth 8]

/-- `LE_READ_2`. -/
def leRead2 (frm : List Byte) : BitVec 16 := BitVec.ofNat 16 (leValue (frm.take 2))

/-- `LE_READ_4`. -/
def leRead4 (frm : List Byte) : Suite := BitVec.ofNat 32 (leValue (frm.take 4))

/-- The selectors of a list of codes; a code without one gives -1. -/
def addSuites {α : Type} (toSuite : α → Option Suite) (codes : List α) : List Byte :=
  codes.flatMap fun code => addSelector ((toSuite code).getD 0xffffffff)

/-- A count, zero at first and then incremented in its low byte at every selector, and the
selectors. -/
def addCounted {α : Type} (toSuite : α → Option Suite) (codes : List α) : List Byte :=
  [BitVec.ofNat 8 codes.length, 0] ++ addSuites toSuite codes

/-- An element: its id, the length that is filled in last, and its body. -/
def element (elementId : Byte) (body : List Byte) : List Byte :=
  elementId :: BitVec.ofNat 8 body.length :: body

/-! ## Building -/

/-- The group cipher `wlan_crypto_build_wpaie` writes. -/
def wpaMcast (params : CryptoParams) : List Cipher :=
  if params.hasMcastCipher .tkip then [.tkip]
  else if params.hasMcastCipher .aesCcm then [.aesCcm]
  else []

/-- The pairwise ciphers `wlan_crypto_build_wpaie` writes. -/
def wpaUcast (params : CryptoParams) : List Cipher :=
  [Cipher.aesCcm, .tkip].filter params.hasUcastCipher

/-- The one key management `wlan_crypto_build_wpaie` writes. -/
def wpaKeyMgmt (params : CryptoParams) : KeyMgmt :=
  if params.hasKeyMgmt .ieee8021x then .ieee8021x
  else if params.hasKeyMgmt .psk then .psk
  else if params.hasKeyMgmt .cckm then .cckm
  else .none

/-- The capabilities `wlan_crypto_build_wpaie` writes. -/
def wpaCaps (params : CryptoParams) : List Byte :=
  if params.rsnCaps ≠ 0 ∧ params.rsnCaps ≠ 0x01 then addShort params.rsnCaps else []

/-- `wlan_crypto_build_wpaie`, given the vdev's parameters. -/
def wlanCryptoBuildWpaie (cryptoParams : Option CryptoParams) : Option (List Byte) :=
  cryptoParams.map fun params =>
    element 221 (addSelector (wlanWpaSel 0x01) ++ addShort 1 ++
      addSuites wlanCryptoWpaCipherToSuite (wpaMcast params) ++
      addCounted wlanCryptoWpaCipherToSuite (wpaUcast params) ++
      addCounted wlanCryptoWpaKeymgmtToSuite [wpaKeyMgmt params] ++
      wpaCaps params)

/-- The group cipher `wlan_crypto_build_rsnie_with_pmksa` writes. -/
def rsnMcast (params : CryptoParams) : List Cipher :=
  if params.hasMcastCipher .tkip then [.tkip]
  else if params.hasMcastCipher .aesCcm then [.aesCcm]
  else if params.hasMcastCipher .aesCcm256 then [.aesCcm256]
  else if params.hasMcastCipher .aesGcm then [.aesGcm]
  else if params.hasMcastCipher .aesGcm256 then [.aesGcm256]
  else []

/-- The pairwise ciphers in the order they are written. -/
def rsnUcastOrder : List Cipher := [.aesCcm256, .aesGcm256, .aesCcm, .aesGcm, .tkip]

/-- The key managements in the order they are written. -/
def rsnKeyMgmtOrder : List KeyMgmt :=
  [.ieee8021x, .psk, .ftIeee8021x, .ftPsk, .ieee8021xSha256, .pskSha256, .sae, .ftSae,
    .ieee8021xSuiteB, .ieee8021xSuiteB192, .filsSha256, .filsSha384, .ftFilsSha256,
    .ftFilsSha384, .owe, .dpp, .osen, .saeExtKey, .ftIeee8021xSha384, .ftSaeExtKey]

/-- The management ciphers in the order they are written. -/
def rsnMgmtOrder : List Cipher := [.aesCmac, .aesGmac, .aesCmac256, .aesGmac256]

/-- The pairwise ciphers `wlan_crypto_build_rsnie_with_pmksa` writes. -/
def rsnUcast (params : CryptoParams) : List Cipher := rsnUcastOrder.filter params.hasUcastCipher

/-- The key managements `wlan_crypto_build_rsnie_with_pmksa` writes; none after CCKM. -/
def rsnKeyMgmt (params : CryptoParams) : List KeyMgmt :=
  if params.hasKeyMgmt .cckm then [.cckm] else rsnKeyMgmtOrder.filter params.hasKeyMgmt

/-- What follows the capabilities: the PMK list and the management cipher. -/
def rsnTail (params : CryptoParams) (pmksa : Option Pmksa) : List Byte :=
  if params.mfpEnabled then
    (match pmksa with
      | some pmksa => addShort 1 ++ pmksa.pmkid.toList
      | none => addShort 0) ++
      addSuites wlanCryptoRsnCipherToSuite (rsnMgmtOrder.filter params.hasMgmtCipher)
  else
    match pmksa with
    | some pmksa => addShort 1 ++ pmksa.pmkid.toList
    | none => []

/-- `wlan_crypto_build_rsnie_with_pmksa`, given the vdev's parameters. -/
def wlanCryptoBuildRsnieWithPmksa (cryptoParams : Option CryptoParams) (pmksa : Option Pmksa) :
    Option (List Byte) :=
  cryptoParams.map fun params =>
    element 48 (addShort 1 ++
      addSuites wlanCryptoRsnCipherToSuite (rsnMcast params) ++
      addCounted wlanCryptoRsnCipherToSuite (rsnUcast params) ++
      addCounted wlanCryptoRsnKeymgmtToSuite (rsnKeyMgmt params) ++
      addShort params.rsnCaps ++ rsnTail params pmksa)

/-! ## Reading selectors -/

/-- The loop over the selectors of an RSN element, which passes over unknown ones. -/
def readKnown {σ α : Type} (toCode : Suite → Option α) (record : σ → α → σ) :
    Nat → σ → List Byte → σ
  | 0, state, _ => state
  | n + 1, state, frm =>
    match toCode (leRead4 frm) with
    | some code => readKnown toCode record n (record state code) (frm.drop 4)
    | none => readKnown toCode record n state (frm.drop 4)

/-- The loop over the selectors of a WPA element, which stops at an unknown one. -/
def readStrict {σ α : Type} (toCode : Suite → Option α) (record : σ → α → σ) :
    Nat → σ → List Byte → QdfStatus × σ
  | 0, state, _ => (.success, state)
  | n + 1, state, frm =>
    match toCode (leRead4 frm) with
    | some code => readStrict toCode record n (record state code) (frm.drop 4)
    | none => (.eInval, state)

/-! ## Checking a WPA element -/

/-- The capabilities, when they are there. -/
def wpaReadCaps (params : CryptoParams) (frm : List Byte) (len : Nat) : QdfStatus × CryptoParams :=
  if 2 ≤ len then (.success, { params with rsnCaps := leRead2 frm }) else (.success, params)

/-- The key management algorithms and what follows. -/
def wpaReadKeyMgmt (params : CryptoParams) (frm : List Byte) (len : Nat) :
    QdfStatus × CryptoParams :=
  let n := (leRead2 frm).toNat
  if len - 2 < n * 4 then (.eInval, params)
  else
    match readStrict wlanCryptoWpaSuiteToKeymgmt .setKeyMgmt n params (frm.drop 2) with
    | (.eInval, params) => (.eInval, params)
    | (.success, params) => wpaReadCaps params (frm.drop (2 + n * 4)) (len - 2 - n * 4)

/-- The pairwise ciphers and what follows. -/
def wpaReadUcast (params : CryptoParams) (frm : List Byte) (len : Nat) : QdfStatus × CryptoParams :=
  let n := (leRead2 frm).toNat
  if len - 2 < n * 4 + 2 then (.eInval, params)
  else
    match readStrict wlanCryptoWpaSuiteToCipher .setUcastCipher n params (frm.drop 2) with
    | (.eInval, params) => (.eInval, params)
    | (.success, params) =>
      if params.ucastcipherset = 0 then (.eInval, params)
      else wpaReadKeyMgmt params (frm.drop (2 + n * 4)) (len - 2 - n * 4)

/-- The group cipher and what follows. -/
def wpaReadMcast (params : CryptoParams) (frm : List Byte) (len : Nat) : QdfStatus × CryptoParams :=
  match wlanCryptoWpaSuiteToCipher (leRead4 frm) with
  | none => (.eInval, params)
  | some c => wpaReadUcast (params.setMcastCipher c) (frm.drop 4) (len - 4)

/-- `wlan_crypto_wpaie_check`. -/
def wlanCryptoWpaieCheck (cryptoParams : CryptoParams) (frm : List Byte) :
    QdfStatus × CryptoParams :=
  let len := (frm.getD 1 0).toNat
  let params := cryptoParams.setAuthmode 5
  if len < 14 then (.eInval, params)
  else if leRead2 (frm.drop 6) ≠ 1 then (.eInval, params)
  else wpaReadMcast params (frm.drop 8) (len - 4 - 2)

/-! ## Checking an RSN element -/

/-- The management cipher. -/
def rsnReadBip (params : CryptoParams) (frm : List Byte) (len : Nat) : QdfStatus × CryptoParams :=
  if len = 0 then
    (.success, if params.mfpEnabled then params.setMgmtCipher (some .aesCmac) else params)
  else if len < 4 then (.eInval, params)
  else (.success, params.setMgmtCipher (wlanCryptoRsnSuiteToCipher (leRead4 frm)))

/-- The PMKIDs and what follows. -/
def rsnReadPmkid (params : CryptoParams) (frm : List Byte) (len : Nat) : QdfStatus × CryptoParams :=
  if 2 ≤ len then
    let n := (leRead2 frm).toNat
    if n ≠ 0 ∧ len - 2 ≠ 0 then
      if n * 16 ≤ len - 2 then
        rsnReadBip params (frm.drop (2 + n * 16)) (len - 2 - n * 16)
      else (.eInval, params)
    else if n ≠ 0 ∧ len - 2 = 0 then (.eInval, params)
    else rsnReadBip params (frm.drop 2) (len - 2)
  else if len = 1 then (.eInval, params)
  else rsnReadBip params frm len

/-- The capabilities and what follows. -/
def rsnReadCaps (params : CryptoParams) (frm : List Byte) (len : Nat) : QdfStatus × CryptoParams :=
  if 2 ≤ len then rsnReadPmkid { params with rsnCaps := leRead2 frm } (frm.drop 2) (len - 2)
  else if len ≠ 0 ∧ len < 2 then (.eInval, params)
  else rsnReadPmkid params frm len

/-- The body of the key management loop. -/
def rsnRecordKeyMgmt (state : CryptoParams × Nat) (k : KeyMgmt) : CryptoParams × Nat :=
  ((state.1.setKeyMgmt k).storeAkm k state.2, state.2 + 1)

/-- The test after the key management algorithms and what follows. -/
def rsnCheckKeyMgmt (params : CryptoParams) (frm : List Byte) (len : Nat) :
    QdfStatus × CryptoParams :=
  if params.keyMgmt = 0 then (.eInval, params) else rsnReadCaps params frm len

/-- The key management algorithms and what follows. -/
def rsnReadKeyMgmt (params : CryptoParams) (frm : List Byte) (len : Nat) :
    QdfStatus × CryptoParams :=
  if len = 0 then (.success, params.setKeyMgmt .ieee8021x)
  else if len < 2 then (.eInval, params)
  else
    let n := (leRead2 frm).toNat
    if n ≠ 0 then
      if len - 2 < n * 4 then (.eInval, params)
      else
        rsnCheckKeyMgmt
          (readKnown wlanCryptoRsnSuiteToKeymgmt rsnRecordKeyMgmt n (params, 0) (frm.drop 2)).1
          (frm.drop (2 + n * 4)) (len - 2 - n * 4)
    else rsnCheckKeyMgmt (params.setKeyMgmt .ieee8021x) (frm.drop 2) (len - 2)

/-- The test after the pairwise ciphers and what follows. -/
def rsnCheckUcast (params : CryptoParams) (frm : List Byte) (len : Nat) :
    QdfStatus × CryptoParams :=
  if params.ucastcipherset = 0 then (.eInval, params) else rsnReadKeyMgmt params frm len

/-- The pairwise ciphers and what follows. -/
def rsnReadUcast (params : CryptoParams) (frm : List Byte) (len : Nat) : QdfStatus × CryptoParams :=
  if len = 0 then (.success, (params.setUcastCipher .aesCcm).setKeyMgmt .ieee8021x)
  else if len < 2 then (.eInval, params)
  else
    let n := (leRead2 frm).toNat
    if n ≠ 0 then
      if len - 2 < n * 4 then (.eInval, params)
      else
        rsnCheckUcast
          (readKnown wlanCryptoRsnSuiteToCipher .setUcastCipher n params (frm.drop 2))
          (frm.drop (2 + n * 4)) (len - 2 - n * 4)
    else rsnCheckUcast (params.setUcastCipher .aesCcm) (frm.drop 2) (len - 2)

/-- The group cipher and what follows. -/
def rsnReadMcast (params : CryptoParams) (frm : List Byte) (len : Nat) : QdfStatus × CryptoParams :=
  if len = 0 then
    (.success, ((params.setMcastCipher .aesCcm).setUcastCipher .aesCcm).setKeyMgmt .ieee8021x)
  else if len < 4 then (.eInval, params)
  else
    match wlanCryptoRsnSuiteToCipher (leRead4 frm) with
    | none => (.eInval, params)
    | some c =>
      if (params.setMcastCipher c).mcastcipherset = 0 then
        (.eInval, params.setMcastCipher c)
      else rsnReadUcast (params.setMcastCipher c) (frm.drop 4) (len - 4)

/-- `wlan_crypto_rsnie_check`. -/
def wlanCryptoRsnieCheck (cryptoParams : CryptoParams) (frm : List Byte) :
    QdfStatus × CryptoParams :=
  let len := (frm.getD 1 0).toNat
  if len < 2 then (.eInval, cryptoParams)
  else
    let params := CryptoParams.zero.setAuthmode 6
    if leRead2 (frm.drop 2) ≠ 1 then (.eInval, params)
    else rsnReadMcast params (frm.drop 4) (len - 2)

end Sm8650.Crypto
