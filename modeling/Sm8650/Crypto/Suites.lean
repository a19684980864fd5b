import Sm8650.Crypto.Mmie
import Sm8650.Data.FlagSet

/-!
# Cipher and key management suites

The suite selectors of WPA and RSN elements and the tables of `wlan_crypto_global_api.c`
that take the internal codes to selectors and back.
-/

namespace Sm8650.Crypto

open Data

/-! ## Internal codes -/

/-- `wlan_crypto_cipher_type`. -/
inductive Cipher where
  | wep | tkip | aesOcb | aesCcm | wapiSms4 | ckip | aesCmac | aesCcm256 | aesCmac256
  | aesGcm | aesGcm256 | aesGmac | aesGmac256 | wapiGcm4 | filsAead | wep40 | wep104 | none
deriving DecidableEq, Repr

/-- The value of the enumerator. -/
def Cipher.code : Cipher → Nat
  | .wep => 0 | .tkip => 1 | .aesOcb => 2 | .aesCcm => 3 | .wapiSms4 => 4 | .ckip => 5
  | .aesCmac => 6 | .aesCcm256 => 7 | .aesCmac256 => 8 | .aesGcm => 9 | .aesGcm256 => 10
  | .aesGmac => 11 | .aesGmac256 => 12 | .wapiGcm4 => 13 | .filsAead => 14 | .wep40 => 15
  | .wep104 => 16 | .none => 17

/-- `wlan_crypto_key_mgmt`. -/
inductive KeyMgmt where
  | ieee8021x | psk | none | ieee8021xNoWpa | wpaNone | ftIeee8021x | ftPsk
  | ieee8021xSha256 | pskSha256 | wps | sae | ftSae | wapiPsk | wapiCert | cckm | osen
  | ieee8021xSuiteB | ieee8021xSuiteB192 | filsSha256 | filsSha384 | ftFilsSha256
  | ftFilsSha384 | owe | dpp | ftIeee8021xSha384 | ftPskSha384 | pskSha384 | saeExtKey
  | ftSaeExtKey
deriving DecidableEq, Repr

/-- The value of the enumerator. -/
def KeyMgmt.code : KeyMgmt → Nat
  | .ieee8021x => 0 | .psk => 1 | .none => 2 | .ieee8021xNoWpa => 3 | .wpaNone => 4
  | .ftIeee8021x => 5 | .ftPsk => 6 | .ieee8021xSha256 => 7 | .pskSha256 => 8 | .wps => 9
  | .sae => 10 | .ftSae => 11 | .wapiPsk => 12 | .wapiCert => 13 | .cckm => 14 | .osen => 15
  | .ieee8021xSuiteB => 16 | .ieee8021xSuiteB192 => 17 | .filsSha256 => 18
  | .filsSha384 => 19 | .ftFilsSha256 => 20 | .ftFilsSha384 => 21 | .owe => 22 | .dpp => 23
  | .ftIeee8021xSha384 => 24 | .ftPskSha384 => 25 | .pskSha384 => 26 | .saeExtKey => 27
  | .ftSaeExtKey => 28

/-- `WLAN_CRYPTO_KEY_MGMT_MAX`. -/
def keyMgmtMax : Nat := 29

theorem KeyMgmt.code_injective {k l : KeyMgmt} (same : k.code = l.code) : k = l := by
  cases k <;> cases l <;> first | rfl | cases same

theorem KeyMgmt.code_lt (k : KeyMgmt) : k.code < 32 := by
  cases k <;> decide

theorem Cipher.code_lt (c : Cipher) : c.code < 32 := by
  cases c <;> decide

/-! ## Selectors -/

/-- A suite selector as a little-endian word: the OUI in the low three bytes, the type above. -/
abbrev Suite := BitVec 32

/-- `WLAN_WPA_SEL`. -/
def wlanWpaSel (x : Suite) : Suite := (x <<< 24) ||| 0xf25000

/-- `WLAN_RSN_SEL`. -/
def wlanRsnSel (x : Suite) : Suite := (x <<< 24) ||| 0xac0f00

/-- `WLAN_WPA_CCKM_AKM` and `WLAN_RSN_CCKM_AKM`. -/
def wlanCckmAkm : Suite := 0x00964000

/-- `RSN_AUTH_KEY_MGMT_OSEN`. -/
def rsnAuthKeyMgmtOsen : Suite := 0x019a6f50

/-- `WLAN_RSN_DPP_AKM`. -/
def wlanRsnDppAkm : Suite := 0x029A6F50

/-- `wlan_crypto_wpa_cipher_to_suite`. -/
def wlanCryptoWpaCipherToSuite : Cipher → Option Suite
  | .tkip => some (wlanWpaSel 0x02)
  | .aesCcm => some (wlanWpaSel 0x04)
  | .none => some (wlanWpaSel 0x00)
  | _ => Option.none

/-- `wlan_crypto_rsn_cipher_to_suite`. -/
def wlanCryptoRsnCipherToSuite : Cipher → Option Suite
  | .tkip => some (wlanRsnSel 0x02)
  | .aesCcm => some (wlanRsnSel 0x04)
  | .aesCcm256 => some (wlanRsnSel 0x0A)
  | .aesGcm => some (wlanRsnSel 0x08)
  | .aesGcm256 => some (wlanRsnSel 0x09)
  | .aesCmac => some (wlanRsnSel 0x06)
  | .aesCmac256 => some (wlanRsnSel 0x0D)
  | .aesGmac => some (wlanRsnSel 0x0B)
  | .aesGmac256 => some (wlanRsnSel 0x0C)
  | .none => some (wlanRsnSel 0x00)
  | _ => Option.none

/-- `wlan_crypto_rsn_keymgmt_to_suite`. -/
def wlanCryptoRsnKeymgmtToSuite : KeyMgmt → Option Suite
  | .none => some (wlanRsnSel 0)
  | .ieee8021x => some (wlanRsnSel 1)
  | .psk => some (wlanRsnSel 2)
  | .ftIeee8021x => some (wlanRsnSel 3)
  | .ftPsk => some (wlanRsnSel 4)
  | .ieee8021xSha256 => some (wlanRsnSel 5)
  | .pskSha256 => some (wlanRsnSel 6)
  | .sae => some (wlanRsnSel 8)
  | .ftSae => some (wlanRsnSel 9)
  | .ieee8021xSuiteB => some (wlanRsnSel 11)
  | .ieee8021xSuiteB192 => some (wlanRsnSel 12)
  | .cckm => some wlanCckmAkm
  | .osen => some rsnAuthKeyMgmtOsen
  | .filsSha256 => some (wlanRsnSel 14)
  | .filsSha384 => some (wlanRsnSel 15)
  | .ftFilsSha256 => some (wlanRsnSel 16)
  | .ftFilsSha384 => some (wlanRsnSel 17)
  | .owe => some (wlanRsnSel 18)
  | .dpp => some wlanRsnDppAkm
  | .ftIeee8021xSha384 => some (wlanRsnSel 13)
  | .saeExtKey => some (wlanRsnSel 24)
  | .ftSaeExtKey => some (wlanRsnSel 25)
  | _ => Option.none

/-- `wlan_crypto_wpa_keymgmt_to_suite`. -/
def wlanCryptoWpaKeymgmtToSuite : KeyMgmt → Option Suite
  | .none => some (wlanWpaSel 0x00)
  | .ieee8021x => some (wlanWpaSel 0x01)
  | .psk => some (wlanWpaSel 0x02)
  | .cckm => some wlanCckmAkm
  | _ => Option.none

/-- The cases of `wlan_crypto_wpa_suite_to_cipher`. -/
def wpaCiphers : List (Suite × Cipher) :=
  [(wlanWpaSel 0x02, .tkip), (wlanWpaSel 0x04, .aesCcm), (wlanWpaSel 0x00, .none)]

/-- `wlan_crypto_wpa_suite_to_cipher`. -/
def wlanCryptoWpaSuiteToCipher (w : Suite) : Option Cipher := wpaCiphers.lookup w

/-- The cases of `wlan_crypto_wpa_suite_to_keymgmt`. -/
def wpaKeymgmts : List (Suite × KeyMgmt) :=
  [(wlanWpaSel 0x01, .ieee8021x), (wlanWpaSel 0x02, .psk), (wlanCckmAkm, .cckm),
    (wlanWpaSel 0x00, .none)]

/-- `wlan_crypto_wpa_suite_to_keymgmt`. -/
def wlanCryptoWpaSuiteToKeymgmt (w : Suite) : Option KeyMgmt := wpaKeymgmts.lookup w

/-- The cases of `wlan_crypto_rsn_suite_to_cipher`. -/
def rsnCiphers : List (Suite × Cipher) :=
  [(wlanRsnSel 0x02, .tkip), (wlanRsnSel 0x04, .aesCcm), (wlanRsnSel 0x0A, .aesCcm256),
    (wlanRsnSel 0x08, .aesGcm), (wlanRsnSel 0x09, .aesGcm256), (wlanRsnSel 0x06, .aesCmac),
    (wlanRsnSel 0x0D, .aesCmac256), (wlanRsnSel 0x0B, .aesGmac),
    (wlanRsnSel 0x0C, .aesGmac256), (wlanRsnSel 0x00, .none)]

/-- `wlan_crypto_rsn_suite_to_cipher`. -/
def wlanCryptoRsnSuiteToCipher (w : Suite) : Option Cipher := rsnCiphers.lookup w

/-- The cases of `wlan_crypto_rsn_suite_to_keymgmt`. -/
def rsnKeymgmts : List (Suite × KeyMgmt) :=
  [(wlanRsnSel 1, .ieee8021x), (wlanRsnSel 2, .psk), (wlanRsnSel 3, .ftIeee8021x),
    (wlanRsnSel 4, .ftPsk), (wlanRsnSel 5, .ieee8021xSha256), (wlanRsnSel 6, .pskSha256),
    (wlanRsnSel 8, .sae), (wlanRsnSel 9, .ftSae), (wlanRsnSel 11, .ieee8021xSuiteB),
    (wlanRsnSel 12, .ieee8021xSuiteB192), (wlanCckmAkm, .cckm), (rsnAuthKeyMgmtOsen, .osen),
    (wlanRsnSel 14, .filsSha256), (wlanRsnSel 15, .filsSha384),
    (wlanRsnSel 16, .ftFilsSha256), (wlanRsnSel 17, .ftFilsSha384), (wlanRsnSel 18, .owe),
    (wlanRsnDppAkm, .dpp), (wlanRsnSel 13, .ftIeee8021xSha384),
    (wlanRsnSel 19, .ftPskSha384), (wlanRsnSel 20, .pskSha384), (wlanRsnSel 24, .saeExtKey),
    (wlanRsnSel 25, .ftSaeExtKey)]

/-- `wlan_crypto_rsn_suite_to_keymgmt`. -/
def wlanCryptoRsnSuiteToKeymgmt (w : Suite) : Option KeyMgmt := rsnKeymgmts.lookup w

/-! ## The tables against each other -/

variable {w : Suite}

/-- Every selector the encoder knows is read back as the cipher it stands for. -/
theorem rsnSuiteToCipher_suite {c : Cipher} (known : wlanCryptoRsnCipherToSuite c = some w) :
    wlanCryptoRsnSuiteToCipher w = some c := by
  cases c <;> cases known <;> decide

theorem wpaSuiteToCipher_suite {c : Cipher} (known : wlanCryptoWpaCipherToSuite c = some w) :
    wlanCryptoWpaSuiteToCipher w = some c := by
  cases c <;> cases known <;> decide

theorem rsnSuiteToKeymgmt_suite {k : KeyMgmt} (known : wlanCryptoRsnKeymgmtToSuite k = some w)
    (not_none : k ≠ .none) : wlanCryptoRsnSuiteToKeymgmt w = some k := by
  cases k <;> first | exact absurd rfl not_none | (cases known <;> decide)

theorem wpaSuiteToKeymgmt_suite {k : KeyMgmt} (known : wlanCryptoWpaKeymgmtToSuite k = some w) :
    wlanCryptoWpaSuiteToKeymgmt w = some k := by
  cases k <;> cases known <;> decide

/-- What a lookup finds is one of the cases. -/
theorem mem_of_lookup {α : Type} {table : List (Suite × α)} {value : α}
    (found : table.lookup w = some value) : value ∈ table.map Prod.snd := by
  induction table with
  | nil => cases found
  | cons head table ih =>
    cases here : w == head.1 with
    | true =>
      rw [List.lookup_cons, here] at found
      cases found
      exact List.mem_cons_self
    | false =>
      rw [List.lookup_cons, here] at found
      exact List.mem_cons_of_mem _ (ih found)

end Sm8650.Crypto
