import Mathlib.Data.List.TakeWhile
import Muradin.Lib.DottedQuad
import Muradin.Net.Endian

/-!
# NetAddress — endpoints of `net/net_address.cpp`

An endpoint is built in memory that holds something already.  `inet_pton` writes the address only
if its text is one, and no constructor looks at its result.

* `getIp_ofIpPort_iff` — the endpoint shows the text it was built from exactly if that text is the
  one of an address;
* `text_round_trip` — and from what it shows, an equal endpoint can be built;
* `determined_iff` — the texts for which the endpoint does not depend on what the memory held.
-/

namespace Muradin
namespace Net

open Lib

/-- The fields of `INET_ADDR` (a `sockaddr_in`) that somebody reads. -/
structure InetAddr where
  sinFamily : BitVec 16
  sinPort : BitVec 16
  sinAddr : Quad
  deriving DecidableEq, Repr

def afInet : BitVec 16 := 2

def afInet6 : BitVec 16 := 10

/-- `INADDR_ANY` -/
def inaddrAny : Quad :=
  { a := 0
    b := 0
    c := 0
    d := 0 }

/-- `inet_pton(AF_INET, src, &dst)`, with what `dst` holds afterwards. -/
def inetPton (src : List Byte) (dst : Quad) : Quad :=
  (Quad.parse src).getD dst

structure EndpointV4 where
  mAddress : InetAddr
  deriving DecidableEq, Repr

namespace EndpointV4

def kPortAny : BitVec 16 := 0

/-- `endpoint_v4(const std::string& ip, uint16_t port)` -/
def ofIpPort (host : ByteOrder) (ip : List Byte) (port : BitVec 16) (raw : InetAddr) :
    EndpointV4 :=
  { mAddress :=
      { sinFamily := afInet
        sinPort := uint16Hton host port
        sinAddr := if ip.length = 0 then inaddrAny else inetPton (cStr ip) raw.sinAddr } }

/-- `endpoint_v4(const std::string& ip)`; here an empty text goes to `inet_pton` as well. -/
def ofIp (host : ByteOrder) (ip : List Byte) (raw : InetAddr) : EndpointV4 :=
  { mAddress :=
      { sinFamily := afInet
        sinPort := uint16Hton host kPortAny
        sinAddr := inetPton (cStr ip) raw.sinAddr } }

/-- `endpoint_v4(uint16_t port)` -/
def ofPort (host : ByteOrder) (port : BitVec 16) : EndpointV4 :=
  { mAddress :=
      { sinFamily := afInet
        sinPort := uint16Hton host port
        sinAddr := inaddrAny } }

/-- `endpoint_v4()` -/
def any (host : ByteOrder) : EndpointV4 :=
  { mAddress :=
      { sinFamily := afInet
        sinPort := uint16Hton host kPortAny
        sinAddr := inaddrAny } }

/-- `endpoint_v4(const INET_ADDR& address)` -/
def ofAddress (address : InetAddr) : EndpointV4 :=
  { mAddress := address }

/-- `inet_ntop` fails for a family it does not know and leaves the buffer of zeros as it is; for
`AF_INET6` it would read behind the structure. -/
def getIp (ep : EndpointV4) : Option (List Byte) :=
  if ep.mAddress.sinFamily = afInet then some ep.mAddress.sinAddr.print
  else if ep.mAddress.sinFamily = afInet6 then none
  else some []

def getPort (host : ByteOrder) (ep : EndpointV4) : BitVec 16 :=
  uint16Ntoh host ep.mAddress.sinPort

def addressAny : List Byte := inaddrAny.print

def portAny : BitVec 16 := kPortAny

variable {host : ByteOrder} {ip : List Byte} {port : BitVec 16} {raw : InetAddr}

/-! ## Texts -/

theorem cStr_print (q : Quad) : cStr q.print = q.print := by
  refine List.takeWhile_eq_self_iff.mpr ?_
  intro b hb
  have hne : b ≠ 0 := fun hzero => q.zero_notMem_print (hzero ▸ hb)
  exact decide_eq_true hne

theorem inetPton_print (q dst : Quad) : inetPton q.print dst = q := by
  rw [inetPton, Quad.parse_eq_some_iff.mpr rfl, Option.getD_some]

/-- Nothing is written for any other text. -/
theorem inetPton_of_not_print {src : List Byte} (h : ¬ ∃ q : Quad, src = q.print) (dst : Quad) :
    inetPton src dst = dst := by
  have hnone : Quad.parse src = none := by
    refine Option.eq_none_iff_forall_ne_some.mpr ?_
    intro q hparse
    exact h ⟨q, Quad.parse_eq_some_iff.mp hparse⟩
  rw [inetPton, hnone, Option.getD_none]

theorem inetPton_const_iff {src : List Byte} :
    (∀ dst dst', inetPton src dst = inetPton src dst') ↔ ∃ q : Quad, src = q.print := by
  constructor
  · intro hconst
    by_contra hnot
    have heq := hconst ⟨0, 0, 0, 0⟩ ⟨1, 0, 0, 0⟩
    rw [inetPton_of_not_print hnot, inetPton_of_not_print hnot] at heq
    exact absurd heq (by decide)
  · rintro ⟨q, rfl⟩ dst dst'
    rw [inetPton_print, inetPton_print]

theorem ofIpPort_print (q : Quad) :
    ofIpPort host q.print port raw =
      { mAddress :=
          { sinFamily := afInet
            sinPort := uint16Hton host port
            sinAddr := q } } := by
  have hlength : ¬ q.print.length = 0 := fun h => q.print_ne_nil (List.length_eq_zero_iff.mp h)
  rw [ofIpPort, if_neg hlength, cStr_print, inetPton_print]

/-! ## Round trips -/

/-- The endpoint shows its text exactly if the text is the one of an address; it shows another
address otherwise, whatever the memory held. -/
theorem getIp_ofIpPort_iff :
    (ofIpPort host ip port raw).getIp = some (cStr ip) ↔ ∃ q : Quad, cStr ip = q.print := by
  have hshown : (ofIpPort host ip port raw).getIp =
      some (ofIpPort host ip port raw).mAddress.sinAddr.print := rfl
  rw [hshown, Option.some_inj]
  constructor
  · intro h
    exact ⟨_, h.symm⟩
  · rintro ⟨q, hq⟩
    have hlength : ¬ ip.length = 0 := by
      intro hzero
      rw [List.length_eq_zero_iff.mp hzero] at hq
      exact q.print_ne_nil hq.symm
    show (if ip.length = 0 then inaddrAny else inetPton (cStr ip) raw.sinAddr).print = cStr ip
    rw [if_neg hlength, hq, inetPton_print]

theorem getPort_ofIpPort : (ofIpPort host ip port raw).getPort host = port :=
  htobe_involutive isByteSwap_swap2Bytes (by decide) host port

/-- From the text and the port that an endpoint shows, the endpoint can be built again. -/
theorem ofIpPort_getIp {ep : EndpointV4} (hfam : ep.mAddress.sinFamily = afInet) :
    ∃ shown, ep.getIp = some shown ∧
      ∀ raw, ofIpPort host shown (ep.getPort host) raw = ep := by
  refine ⟨ep.mAddress.sinAddr.print, by rw [getIp, if_pos hfam], ?_⟩
  intro raw
  have hport : uint16Hton host (ep.getPort host) = ep.mAddress.sinPort :=
    htobe_involutive isByteSwap_swap2Bytes (by decide) host _
  rw [ofIpPort_print, hport, ← hfam]

/-- An endpoint shows the port it was built with and keeps it in network order; it shows its text
exactly if this is the text of an address; and what it shows is enough to build it again, in any
memory. -/
theorem text_round_trip (host : ByteOrder) (ip : List Byte) (port : BitVec 16) (raw : InetAddr) :
    (ofIpPort host ip port raw).getPort host = port ∧
    memoryImage host 2 (ofIpPort host ip port raw).mAddress.sinPort = bytesMsb 2 port ∧
    ((ofIpPort host ip port raw).getIp = some (cStr ip) ↔ ∃ q : Quad, cStr ip = q.print) ∧
    ∃ shown, (ofIpPort host ip port raw).getIp = some shown ∧
      ∀ raw', ofIpPort host shown port raw' = ofIpPort host ip port raw := by
  have hport : (ofIpPort host ip port raw).getPort host = port := getPort_ofIpPort
  obtain ⟨shown, hshown, hagain⟩ : ∃ shown, (ofIpPort host ip port raw).getIp = some shown ∧
      ∀ raw', ofIpPort host shown ((ofIpPort host ip port raw).getPort host) raw' =
        ofIpPort host ip port raw := ofIpPort_getIp rfl
  rw [hport] at hagain
  exact ⟨hport, memoryImage_htobe isByteSwap_swap2Bytes host port, getIp_ofIpPort_iff,
    shown, hshown, hagain⟩

/-! ## What the memory held -/

/-- The endpoint is the one its arguments ask for, in any memory, exactly for the texts of
addresses, and with a port for the empty text as well. -/
theorem determined_iff (host : ByteOrder) (ip : List Byte) (port : BitVec 16) :
    ((∀ raw raw', ofIpPort host ip port raw = ofIpPort host ip port raw') ↔
      ip = [] ∨ ∃ q : Quad, cStr ip = q.print) ∧
    ((∀ raw raw', ofIp host ip raw = ofIp host ip raw') ↔ ∃ q : Quad, cStr ip = q.print) := by
  constructor
  · by_cases hip : ip = []
    · subst hip
      exact ⟨fun _ => Or.inl rfl, fun _ _ _ => rfl⟩
    · have hlength : ¬ ip.length = 0 := fun h => hip (List.length_eq_zero_iff.mp h)
      rw [or_iff_right hip, ← inetPton_const_iff]
      constructor
      · intro hsame dst dst'
        have heq := hsame ⟨0, 0, dst⟩ ⟨0, 0, dst'⟩
        simpa [ofIpPort, hlength] using heq
      · intro hconst raw raw'
        rw [ofIpPort, ofIpPort, hconst raw.sinAddr raw'.sinAddr]
  · rw [← inetPton_const_iff]
    constructor
    · intro hsame dst dst'
      have heq := hsame ⟨0, 0, dst⟩ ⟨0, 0, dst'⟩
      simpa [ofIp] using heq
    · intro hconst raw raw'
      rw [ofIp, ofIp, hconst raw.sinAddr raw'.sinAddr]

end EndpointV4

end Net
end Muradin
