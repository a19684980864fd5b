import Mathlib.Data.Nat.ModEq

/-!
# Management frames with a MIC

`wlan_crypto_add_mmie` and `wlan_crypto_is_mmie_valid` of `wlan_crypto_global_api.c`:
the sender counts its frames in a little-endian counter of six bytes and appends the
counter and a MIC, the receiver compares the counter with the last one it accepted
and checks the MIC.
-/

namespace Sm8650.Crypto

abbrev Byte := BitVec 8

/-! ## Counters -/

/-- The value of bytes in little-endian order. -/
def leValue : List Byte → Nat
  | [] => 0
  | byte :: bytes => byte.toNat + 256 * leValue bytes

/-- The loop of `wlan_crypto_add_mmie` that increments a counter. -/
def increment : List Byte → List Byte
  | [] => []
  | byte :: bytes => if byte + 1 ≠ 0 then (byte + 1) :: bytes else 0 :: increment bytes

@[simp]
theorem length_increment (bytes : List Byte) : (increment bytes).length = bytes.length := by
  induction bytes with
  | nil => rfl
  | cons byte bytes ih =>
    unfold increment
    by_cases noCarry : byte + 1 ≠ 0
    · rw [if_pos noCarry, List.length_cons, List.length_cons]
    · rw [if_neg noCarry, List.length_cons, List.length_cons, ih]

/-- The six bytes of a packet number, in the order they have in memory. -/
structure Counter where
  bytes : List Byte
  length_bytes : bytes.length = 6
  deriving DecidableEq

namespace Counter

/-- The packet number. -/
def value (counter : Counter) : Nat := leValue counter.bytes

/-- The counter of the next frame. -/
def next (counter : Counter) : Counter :=
  ⟨increment counter.bytes, (length_increment _).trans counter.length_bytes⟩

/-- Six bytes at an offset. -/
def read (bytes : List Byte) (off : Nat) : Counter :=
  ⟨(List.range 6).map fun i => bytes.getD (off + i) 0, by simp⟩

end Counter

/-- `qdf_mem_cmp`: the first byte that differs decides. -/
def qdfMemCmp : List Byte → List Byte → Ordering
  | first :: firsts, second :: seconds =>
    if first = second then qdfMemCmp firsts seconds else compare first.toNat second.toNat
  | _, _ => .eq

theorem qdfMemCmp_self (bytes : List Byte) : qdfMemCmp bytes bytes = .eq := by
  induction bytes with
  | nil => rfl
  | cons byte bytes ih =>
    rw [qdfMemCmp, if_pos rfl, ih]

/-! ## Keys -/

/-- The type of an integrity key; the first four are the BIP ciphers. -/
inductive IgtkType
  | aesCmac
  | aesCmac256
  | aesGmac
  | aesGmac256
  | other
  deriving DecidableEq, Repr

/-- The length of the MIC. -/
def micLen (type : IgtkType) : Nat := if type = .aesCmac then 8 else 16

/-- What a MAC primitive writes. -/
structure Mic where
  bytes : List Byte
  length_bytes : bytes.length = 16

/-- The MAC primitives of the kernel, that succeed. -/
structure MacPrimitives where
  omac1Aes128 : (key data : List Byte) → Mic
  omac1Aes256 : (key data : List Byte) → Mic
  aesGmac : (key : List Byte) → (keylen : Nat) → (nonce data : List Byte) → Mic

/-- `struct wlan_crypto_key`, of an integrity key; of the counters the bytes that are
counted. -/
structure IgtkKey where
  keylen : Nat
  keyix : BitVec 16
  keyval : List Byte
  keytsc : Counter
  keyrsc : Counter

/-- `WLAN_CRYPTO_MAXKEYIDX` -/
def wlanCryptoMaxKeyIdx : Nat := 4

/-- `WLAN_CRYPTO_MAXIGTKKEYIDX` -/
def wlanCryptoMaxIgtkKeyIdx : Nat := 2

/-- `struct wlan_crypto_keys`, as far as integrity keys are concerned. -/
structure CryptoKeys where
  igtkKey : Nat → Option IgtkKey
  igtkKeyType : IgtkType
  defIgtkTxKeyid : Nat

namespace CryptoKeys

/-- A key is replaced. -/
def setKey (keys : CryptoKeys) (keyid : Nat) (key : IgtkKey) : CryptoKeys :=
  { keys with igtkKey := fun other => if other = keyid then some key else keys.igtkKey other }

end CryptoKeys

/-! ## Frames -/

/-- `sizeof(struct wlan_frame_hdr)` -/
def frameHdrLen : Nat := 24

/-- `WLAN_ELEMID_MMIE` -/
def wlanElemidMmie : Byte := 76

/-- `WLAN_FC1_RETRY | WLAN_FC1_PWRMGT | WLAN_FC1_MOREDATA` -/
def maskedFc1 : Byte := 0x38

/-- `i_addr2` -/
def addr2 (frame : List Byte) : List Byte := (frame.drop 10).take 6

/-- `wlan_crypto_gmac_pn_swap` behind the second address. -/
def gmacNonce (frame : List Byte) (pn : Counter) : List Byte := addr2 frame ++ pn.bytes.reverse

/-- The MIC of some data, if the key is of a known type. -/
def computeMic (prims : MacPrimitives) (type : IgtkType) (key : IgtkKey) (frame : List Byte)
    (pn : Counter) (data : List Byte) : Option Mic :=
  match type with
  | .aesCmac => some (prims.omac1Aes128 key.keyval data)
  | .aesCmac256 => some (prims.omac1Aes256 key.keyval data)
  | .aesGmac | .aesGmac256 =>
    some (prims.aesGmac key.keyval key.keylen (gmacNonce frame pn) data)
  | .other => none

/-- `struct wlan_crypto_mmie` before its MIC. -/
def mmieHead (type : IgtkType) (key : IgtkKey) : List Byte :=
  [wlanElemidMmie, BitVec.ofNat 8 (8 + micLen type), key.keyix.setWidth 8,
    (key.keyix >>> 8).setWidth 8] ++ key.keytsc.bytes

/-- The additional data as the sender puts it together. -/
def sentAad (bfrm : List Byte) : List Byte :=
  [bfrm.getD 0 0, bfrm.getD 1 0 &&& ~~~maskedFc1] ++ (bfrm.drop 4).take 6 ++ addr2 bfrm ++
    (bfrm.drop 16).take 6

/-- `wlan_crypto_add_mmie`: the frame with its MMIE, if memory is granted for the
authenticated data. -/
def wlanCryptoAddMmie (prims : MacPrimitives) (keys : CryptoKeys) (bfrm : List Byte)
    (granted : Bool) : Option (List Byte) × CryptoKeys :=
  if wlanCryptoMaxIgtkKeyIdx ≤ keys.defIgtkTxKeyid then
    (none, keys)
  else
    match keys.igtkKey keys.defIgtkTxKeyid with
    | none => (none, keys)
    | some key =>
      let key := { key with keytsc := key.keytsc.next }
      let keys := keys.setKey keys.defIgtkTxKeyid key
      let efrm := bfrm ++ mmieHead keys.igtkKeyType key
      let data := sentAad bfrm ++
        (efrm ++ List.replicate (micLen keys.igtkKeyType) 0).drop frameHdrLen
      if granted then
        match computeMic prims keys.igtkKeyType key bfrm key.keytsc data with
        | none => (none, keys)
        | some mic => (some (efrm ++ mic.bytes.take (micLen keys.igtkKeyType)), keys)
      else
        (none, keys)

/-- The additional data as the receiver puts it together. -/
def receivedAad (frm : List Byte) : List Byte :=
  [frm.getD 0 0, frm.getD 1 0 &&& ~~~maskedFc1] ++ (frm.drop 4).take 18

/-- The MMIE at the end of a frame. -/
def mmie (type : IgtkType) (frm : List Byte) : List Byte :=
  frm.drop (frm.length - (10 + micLen type))

/-- `key_id` -/
def mmieKeyId (mmie : List Byte) : Nat := 256 * (mmie.getD 3 0).toNat + (mmie.getD 2 0).toNat

/-- `wlan_crypto_is_mmie_valid`, for a frame that is not shorter than an MMIE; memory is
asked for twice. -/
def wlanCryptoIsMmieValid (prims : MacPrimitives) (keys : CryptoKeys) (frm : List Byte)
    (granted : Bool × Bool) : Bool × CryptoKeys :=
  let micLen := micLen keys.igtkKeyType
  let len := frm.length % 2 ^ 16
  let mmie := mmie keys.igtkKeyType frm
  if frm.length < frameHdrLen then
    (false, keys)
  else if mmie.getD 0 0 ≠ wlanElemidMmie then
    (false, keys)
  else if wlanCryptoMaxKeyIdx + wlanCryptoMaxIgtkKeyIdx ≤ mmieKeyId mmie ∨
      mmieKeyId mmie < wlanCryptoMaxKeyIdx then
    (false, keys)
  else
    match keys.igtkKey (mmieKeyId mmie - wlanCryptoMaxKeyIdx) with
    | none => (false, keys)
    | some key =>
      let ipn := Counter.read mmie 4
      if qdfMemCmp ipn.bytes key.keyrsc.bytes ≠ .gt then
        (false, keys)
      else if !granted.1 || !granted.2 then
        (false, keys)
      else
        let body := (frm.drop frameHdrLen).take (len - frameHdrLen)
        let data := receivedAad frm ++ body.take (len - frameHdrLen - micLen) ++
          List.replicate micLen 0
        match computeMic prims keys.igtkKeyType key frm ipn data with
        | none => (false, keys)
        | some mic =>
          if qdfMemCmp (mic.bytes.take micLen) ((mmie.drop 10).take micLen) ≠ .eq then
            (false, keys)
          else
            (true, keys.setKey (mmieKeyId mmie - wlanCryptoMaxKeyIdx)
              { key with keyrsc := ipn })

end Sm8650.Crypto
