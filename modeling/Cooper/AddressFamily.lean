import Cooper.MsgBufferCalls

namespace Cooper.AddressFamily

open Cooper.ByteOrder
open Cooper.MsgBuffer (Bytes)
open Cooper.MsgBufferCalls

def AF_INET : UInt16 := 2

def AF_INET6 : UInt16 := 10

def kInaddrAny : UInt32 := 0

def kInaddrLoopback : UInt32 := 0x7f000001

structure SockaddrIn where
  sin_family : UInt16
  sin_port : UInt16
  s_addr : UInt32
  sin_zero₀ : UInt32
  sin_zero₁ : UInt32
  deriving DecidableEq

/-- The words `s6_addr32` of an IPv6 address. -/
structure In6Addr where
  word₀ : UInt32
  word₁ : UInt32
  word₂ : UInt32
  word₃ : UInt32
  deriving DecidableEq

structure SockaddrIn6 where
  sin6_family : UInt16
  sin6_port : UInt16
  sin6_flowinfo : UInt32
  sin6_addr : In6Addr
  sin6_scope_id : UInt32
  deriving DecidableEq

namespace SockaddrIn6

/-- The first member of the union, which lies over the second: `sin_addr` over the flow information
and `sin_zero` over the first half of the address. -/
def addr (a : SockaddrIn6) : SockaddrIn where
  sin_family := a.sin6_family
  sin_port := a.sin6_port
  s_addr := a.sin6_flowinfo
  sin_zero₀ := a.sin6_addr.word₀
  sin_zero₁ := a.sin6_addr.word₁

def setAddr (a : SockaddrIn6) (addr : SockaddrIn) : SockaddrIn6 where
  sin6_family := addr.sin_family
  sin6_port := addr.sin_port
  sin6_flowinfo := addr.s_addr
  sin6_addr := { a.sin6_addr with word₀ := addr.sin_zero₀, word₁ := addr.sin_zero₁ }
  sin6_scope_id := a.sin6_scope_id

@[simp] theorem addr_setAddr (a : SockaddrIn6) (addr : SockaddrIn) : (a.setAddr addr).addr = addr :=
  rfl

end SockaddrIn6

structure InetAddress where
  addr6_ : SockaddrIn6
  isIpV6_ : Bool := false
  isUnspecified_ : Bool := true
  deriving DecidableEq

inductive Construction
  | ofPort (port : UInt16) (loopbackOnly ipv6 : Bool)
  | ofIp (ip : Bytes) (port : UInt16) (ipv6 : Bool)
  | ofSockaddrIn (addr : SockaddrIn)
  | ofSockaddrIn6 (addr : SockaddrIn6)

inductive Setter
  | setSockAddrInet6 (addr6 : SockaddrIn6)
  | setPortNetEndian (port : UInt16)

namespace InetAddress

def family (a : InetAddress) : UInt16 := a.addr6_.addr.sin_family

def isIpV6 (a : InetAddress) : Bool := a.isIpV6_

def isUnspecified (a : InetAddress) : Bool := a.isUnspecified_

def ipNetEndian (a : InetAddress) : UInt32 := a.addr6_.addr.s_addr

def ip6NetEndian (a : InetAddress) : In6Addr := a.addr6_.sin6_addr

def portNetEndian (a : InetAddress) : UInt16 := a.addr6_.addr.sin_port

def setSockAddrInet6 (_ : InetAddress) (addr6 : SockaddrIn6) : InetAddress where
  addr6_ := addr6
  isIpV6_ := addr6.sin6_family == AF_INET6
  isUnspecified_ := false

def setPortNetEndian (a : InetAddress) (port : UInt16) : InetAddress :=
  { a with addr6_ := a.addr6_.setAddr { a.addr6_.addr with sin_port := port } }

def set (a : InetAddress) : Setter → InetAddress
  | .setSockAddrInet6 addr6 => a.setSockAddrInet6 addr6
  | .setPortNetEndian port => a.setPortNetEndian port

section Construct

-- `storage` is what the memory of the union holds before the constructor writes to it
variable (host : Endian)
variable (inetPton4 : Bytes → Option UInt32) (inetPton6 : Bytes → Option In6Addr)
variable (storage : SockaddrIn6)

def ofPort (port : UInt16) (loopbackOnly ipv6 : Bool) : InetAddress :=
  if ipv6 then
    { addr6_ :=
        { sin6_family := AF_INET6
          sin6_port := htons host port
          sin6_flowinfo := 0
          sin6_addr := if loopbackOnly then ⟨0, 0, 0, htonl host 1⟩ else ⟨0, 0, 0, 0⟩
          sin6_scope_id := 0 }
      isIpV6_ := ipv6
      isUnspecified_ := false }
  else
    { addr6_ := storage.setAddr
        { sin_family := AF_INET
          sin_port := htons host port
          s_addr := htonl host (if loopbackOnly then kInaddrLoopback else kInaddrAny)
          sin_zero₀ := 0
          sin_zero₁ := 0 }
      isIpV6_ := ipv6
      isUnspecified_ := false }

/-- The functions `inet_pton` read `ip` up to its first zero, and fail on what is no address. -/
def ofIp (ip : Bytes) (port : UInt16) (ipv6 : Bool) : InetAddress :=
  if ipv6 then
    let parsed := inetPton6 (ip.takeWhile (· ≠ 0))
    { addr6_ :=
        { sin6_family := AF_INET6
          sin6_port := htons host port
          sin6_flowinfo := 0
          sin6_addr := parsed.getD ⟨0, 0, 0, 0⟩
          sin6_scope_id := 0 }
      isIpV6_ := ipv6
      isUnspecified_ := parsed.isNone }
  else
    let parsed := inetPton4 (ip.takeWhile (· ≠ 0))
    { addr6_ := storage.setAddr
        { sin_family := AF_INET
          sin_port := htons host port
          s_addr := parsed.getD 0
          sin_zero₀ := 0
          sin_zero₁ := 0 }
      isIpV6_ := ipv6
      isUnspecified_ := parsed.isNone }

/-- The tag keeps its initial value. -/
def ofSockaddrIn (addr : SockaddrIn) : InetAddress :=
  { addr6_ := storage.setAddr addr, isUnspecified_ := false }

/-- The tag does not depend on the family. -/
def ofSockaddrIn6 (addr : SockaddrIn6) : InetAddress :=
  { addr6_ := addr, isIpV6_ := true, isUnspecified_ := false }

def construct : Construction → InetAddress
  | .ofPort port loopbackOnly ipv6 => ofPort host storage port loopbackOnly ipv6
  | .ofIp ip port ipv6 => ofIp host inetPton4 inetPton6 storage ip port ipv6
  | .ofSockaddrIn addr => ofSockaddrIn storage addr
  | .ofSockaddrIn6 addr => ofSockaddrIn6 addr

/-- An address as it stands after its construction and some calls of its setters. -/
def build (c : Construction) (setters : List Setter) : InetAddress :=
  setters.foldl set (construct host inetPton4 inetPton6 storage c)

end Construct

section Readers

variable (host : Endian)

def isLoopbackIp (a : InetAddress) : Bool :=
  if !a.isIpV6 then
    ntohl host a.addr6_.addr.s_addr == 0x7f000001
  else
    let addrP := a.ip6NetEndian
    (addrP.word₀ == 0 && addrP.word₁ == 0 && addrP.word₂ == 0 && ntohl host addrP.word₃ == 1) ||
      (addrP.word₀ == 0 && addrP.word₁ == 0 && ntohl host addrP.word₂ == 0xffff &&
        ntohl host addrP.word₃ == 0x7f000001)

/-- The test of `isIntranetIp` on an IPv4 address, which stands in its two branches. -/
def isIntranetIp4 (ip_addr : UInt32) : Bool :=
  (0x0A000000 ≤ ip_addr && ip_addr ≤ 0x0AFFFFFF) ||
    (0xAC100000 ≤ ip_addr && ip_addr ≤ 0xAC1FFFFF) ||
    (0xC0A80000 ≤ ip_addr && ip_addr ≤ 0xC0A8FFFF) || ip_addr == 0x7f000001

def isIntranetIp (a : InetAddress) : Bool :=
  if a.addr6_.addr.sin_family = AF_INET then
    isIntranetIp4 (ntohl host a.addr6_.addr.s_addr)
  else
    let addrP := a.ip6NetEndian
    let i32 := ntohl host addrP.word₀ &&& 0xffc00000
    (addrP.word₀ == 0 && addrP.word₁ == 0 && addrP.word₂ == 0 && ntohl host addrP.word₃ == 1) ||
      (i32 == 0xfec00000 || i32 == 0xfe800000) ||
      (addrP.word₀ == 0 && addrP.word₁ == 0 && ntohl host addrP.word₂ == 0xffff &&
        isIntranetIp4 (ntohl host addrP.word₃))

end Readers

end InetAddress

inductive SocketName
  | inet (sin_port : UInt16) (s_addr : UInt32)
  | inet6 (sin6_port : UInt16) (sin6_flowinfo : UInt32) (sin6_addr : In6Addr)
      (sin6_scope_id : UInt32)

/-- A zeroed `sockaddr_in6` that the kernel has filled in. -/
def SocketName.filled : SocketName → SockaddrIn6
  | .inet sin_port s_addr => ⟨AF_INET, sin_port, s_addr, ⟨0, 0, 0, 0⟩, 0⟩
  | .inet6 sin6_port sin6_flowinfo sin6_addr sin6_scope_id =>
      ⟨AF_INET6, sin6_port, sin6_flowinfo, sin6_addr, sin6_scope_id⟩

def getLocalAddr : Option SocketName → SockaddrIn6
  | none => ⟨0, 0, 0, ⟨0, 0, 0, 0⟩, 0⟩
  | some name => name.filled

def accept (peeraddr : InetAddress) (name : SocketName) : InetAddress :=
  peeraddr.setSockAddrInet6 name.filled

/-- The local address that `TcpServer::newConnection` and `TcpClient::newConnection` give to a
connection. -/
def localAddress (name : Option SocketName) : InetAddress :=
  InetAddress.ofSockaddrIn6 (getLocalAddr name)

def Construction.Tags : Construction → Prop
  | .ofPort .. => True
  | .ofIp .. => True
  | .ofSockaddrIn addr => addr.sin_family ≠ AF_INET6
  | .ofSockaddrIn6 addr => addr.sin6_family = AF_INET6

namespace InetAddress

/-- The tag says which form the address has. -/
def Tagged (a : InetAddress) : Prop := a.isIpV6 = true ↔ a.family = AF_INET6

theorem setSockAddrInet6_tagged (a : InetAddress) (addr6 : SockaddrIn6) :
    (a.setSockAddrInet6 addr6).Tagged := by
  unfold Tagged
  exact beq_iff_eq

theorem set_tagged_iff (a : InetAddress) (setter : Setter) :
    (a.set setter).Tagged ↔ (∃ addr6, setter = .setSockAddrInet6 addr6) ∨ a.Tagged := by
  cases setter with
  | setSockAddrInet6 addr6 =>
      constructor
      · intro _
        exact Or.inl ⟨addr6, rfl⟩
      · intro _
        exact setSockAddrInet6_tagged a addr6
  | setPortNetEndian port =>
      constructor
      · exact Or.inr
      · rintro (⟨addr6, h⟩ | h)
        · cases h
        · exact h

theorem foldl_set_tagged_iff (setters : List Setter) (a : InetAddress) :
    (setters.foldl set a).Tagged ↔
      (∃ addr6, Setter.setSockAddrInet6 addr6 ∈ setters) ∨ a.Tagged := by
  induction setters generalizing a with
  | nil => simp
  | cons setter setters ih =>
      rw [List.foldl_cons, ih, set_tagged_iff, ← or_assoc]
      apply or_congr_left
      simp only [List.mem_cons, exists_or, eq_comm, or_comm]

section Construct

variable (host : Endian)
variable (inetPton4 : Bytes → Option UInt32) (inetPton6 : Bytes → Option In6Addr)
variable (storage : SockaddrIn6)

theorem construct_tagged_iff (c : Construction) :
    (construct host inetPton4 inetPton6 storage c).Tagged ↔ c.Tags := by
  cases c with
  | ofPort port loopbackOnly ipv6 =>
      cases ipv6 <;> simp [construct, ofPort, Tagged, isIpV6, family, Construction.Tags,
        SockaddrIn6.addr, SockaddrIn6.setAddr, AF_INET, AF_INET6]
  | ofIp ip port ipv6 =>
      cases ipv6 <;> simp [construct, ofIp, Tagged, isIpV6, family, Construction.Tags,
        SockaddrIn6.addr, SockaddrIn6.setAddr, AF_INET, AF_INET6]
  | ofSockaddrIn addr =>
      simp [construct, ofSockaddrIn, Tagged, isIpV6, family, Construction.Tags]
  | ofSockaddrIn6 addr =>
      simp [construct, ofSockaddrIn6, Tagged, isIpV6, family, Construction.Tags, SockaddrIn6.addr]

theorem build_tagged_iff (c : Construction) (setters : List Setter) :
    (build host inetPton4 inetPton6 storage c setters).Tagged ↔
      (∃ addr6, Setter.setSockAddrInet6 addr6 ∈ setters) ∨ c.Tags := by
  rw [build, foldl_set_tagged_iff, construct_tagged_iff]

end Construct

section Readers

variable (host : Endian)

theorem isLoopbackIp_of_inet {a : InetAddress} (ha : a.Tagged) (hfamily : a.family = AF_INET) :
    a.isLoopbackIp host = (ntohl host a.ipNetEndian == kInaddrLoopback) := by
  have htag : a.isIpV6 = false := by
    apply Bool.eq_false_iff.mpr
    intro htag
    have hfamily6 := ha.mp htag
    rw [hfamily] at hfamily6
    exact absurd hfamily6 (by decide)
  rw [isLoopbackIp, htag]
  rfl

/-- With a wrong tag an IPv4 address that the kernel filled in is never the loopback address. -/
theorem isLoopbackIp_of_not_tagged {a : InetAddress} (ha : ¬ a.Tagged)
    (hfamily : a.family = AF_INET) (hzero : a.ip6NetEndian = ⟨0, 0, 0, 0⟩) :
    a.isLoopbackIp host = false := by
  have hnot6 : a.family ≠ AF_INET6 := by
    rw [hfamily]
    decide
  have htag : a.isIpV6 = true := by
    by_contra htag
    exact ha ⟨fun h => absurd h htag, fun h => absurd h hnot6⟩
  cases host <;> simp [isLoopbackIp, htag, hzero] <;> decide

theorem isIntranetIp4_loopback : isIntranetIp4 0x7f000001 = true := by decide

theorem isIntranetIp_of_isLoopbackIp {a : InetAddress} (ha : a.Tagged)
    (hfamily : a.family = AF_INET ∨ a.family = AF_INET6)
    (hloopback : a.isLoopbackIp host = true) : a.isIntranetIp host = true := by
  rcases hfamily with hinet | hinet6
  · rw [isLoopbackIp_of_inet host ha hinet, beq_iff_eq] at hloopback
    have hintranet : isIntranetIp4 (ntohl host a.ipNetEndian) = true := by
      rw [hloopback]
      exact isIntranetIp4_loopback
    exact (if_pos hinet).trans hintranet
  · have htag : a.isIpV6 = true := ha.mpr hinet6
    have hnot : ¬ a.addr6_.addr.sin_family = AF_INET := by
      intro h
      exact absurd (h.symm.trans hinet6) (by decide)
    simp only [isLoopbackIp, htag, Bool.not_true, Bool.false_eq_true, if_false, Bool.or_eq_true,
      Bool.and_eq_true, beq_iff_eq] at hloopback
    simp only [isIntranetIp, if_neg hnot, Bool.or_eq_true, Bool.and_eq_true, beq_iff_eq]
    rcases hloopback with h | ⟨⟨⟨h₀, h₁⟩, h₂⟩, h₃⟩
    · exact Or.inl (Or.inl h)
    · refine Or.inr ⟨⟨⟨h₀, h₁⟩, h₂⟩, ?_⟩
      rw [h₃]
      exact isIntranetIp4_loopback

end Readers

end InetAddress

section Connections

variable (host : Endian)

theorem accept_tagged (peeraddr : InetAddress) (name : SocketName) :
    (accept peeraddr name).Tagged :=
  InetAddress.setSockAddrInet6_tagged peeraddr name.filled

theorem localAddress_tagged_iff (name : Option SocketName) :
    (localAddress name).Tagged ↔ ∃ port flowinfo addr scope,
      name = some (.inet6 port flowinfo addr scope) := by
  rcases name with _ | ⟨port, s_addr⟩ | ⟨port, flowinfo, addr, scope⟩
  · constructor
    · intro h
      exact absurd (h.mp rfl) (by decide)
    · rintro ⟨port, flowinfo, addr, scope, h⟩
      cases h
  · constructor
    · intro h
      exact absurd (h.mp rfl) (by show ¬ AF_INET = AF_INET6; decide)
    · rintro ⟨port', flowinfo, addr, scope, h⟩
      cases h
  · constructor
    · intro _
      exact ⟨port, flowinfo, addr, scope, rfl⟩
    · intro _
      exact ⟨fun _ => rfl, fun _ => rfl⟩

/-- The two addresses of a connection from a host to itself, which have one name for the kernel. -/
theorem localAddress_isLoopbackIp_iff (peeraddr : InetAddress) (name : SocketName) :
    (localAddress (some name)).isLoopbackIp host = (accept peeraddr name).isLoopbackIp host ↔
      ∀ port s_addr, name = .inet port s_addr → ntohl host s_addr ≠ kInaddrLoopback := by
  cases name with
  | inet port s_addr =>
      have hlocal : ¬ (localAddress (some (.inet port s_addr))).Tagged := by
        rw [localAddress_tagged_iff]
        rintro ⟨port', flowinfo, addr, scope, h⟩
        cases h
      rw [InetAddress.isLoopbackIp_of_not_tagged host hlocal rfl rfl,
        InetAddress.isLoopbackIp_of_inet host (accept_tagged peeraddr _) rfl]
      change false = (ntohl host s_addr == kInaddrLoopback) ↔ _
      rw [eq_comm, beq_eq_false_iff_ne]
      constructor
      · rintro hne port' s_addr' h
        cases h
        exact hne
      · intro h
        exact h port s_addr rfl
  | inet6 port flowinfo addr scope =>
      constructor
      · rintro _ port' s_addr' h
        cases h
      · intro _
        rfl

end Connections

section Endpoints

variable (host : Endian)
variable (inetPton4 : Bytes → Option UInt32) (inetPton6 : Bytes → Option In6Addr)

/-- The tag is right if `setSockAddrInet6` was called or the constructor has put it right, and two
addresses of one IPv4 endpoint then have the same answer of `isLoopbackIp`. -/
theorem build_tagged_and_isLoopbackIp (storage storage' : SockaddrIn6) (c c' : Construction)
    (setters setters' : List Setter) :
    let a := InetAddress.build host inetPton4 inetPton6 storage c setters
    let a' := InetAddress.build host inetPton4 inetPton6 storage' c' setters'
    ((a.isIpV6 = true ↔ a.family = AF_INET6) ↔
      (∃ addr6, Setter.setSockAddrInet6 addr6 ∈ setters) ∨ c.Tags) ∧
    ((∃ addr6, Setter.setSockAddrInet6 addr6 ∈ setters) ∨ c.Tags →
      (∃ addr6, Setter.setSockAddrInet6 addr6 ∈ setters') ∨ c'.Tags →
      a.family = AF_INET → a'.family = AF_INET → a.ipNetEndian = a'.ipNetEndian →
        a.isLoopbackIp host = a'.isLoopbackIp host) := by
  intro a a'
  refine ⟨InetAddress.build_tagged_iff host inetPton4 inetPton6 storage c setters, ?_⟩
  intro hc hc' hfamily hfamily' hip
  have ha : a.Tagged := (InetAddress.build_tagged_iff ..).mpr hc
  have ha' : a'.Tagged := (InetAddress.build_tagged_iff ..).mpr hc'
  rw [InetAddress.isLoopbackIp_of_inet host ha hfamily,
    InetAddress.isLoopbackIp_of_inet host ha' hfamily', hip]

theorem build_tagged_and_isLoopbackIp_loopback :
    (InetAddress.build .little (fun _ => none) (fun _ => none) (getLocalAddr none)
        (.ofPort 80 true false) []).isLoopbackIp .little =
      (InetAddress.build .little (fun _ => none) (fun _ => none) (getLocalAddr none)
        (.ofPort 0 false true)
        [.setSockAddrInet6 (SocketName.inet 0x5000 0x100007f).filled]).isLoopbackIp .little :=
  (build_tagged_and_isLoopbackIp .little (fun _ => none) (fun _ => none) (getLocalAddr none)
    (getLocalAddr none) (.ofPort 80 true false) (.ofPort 0 false true) []
    [.setSockAddrInet6 (SocketName.inet 0x5000 0x100007f).filled]).2 (Or.inr trivial)
    (Or.inl ⟨_, List.mem_singleton.mpr rfl⟩) (by decide) (by decide) (by decide)

theorem localAddress_loopback :
    let local_ := localAddress (some (.inet 0x5000 0x100007f))
    let peer := accept (InetAddress.ofPort .little (getLocalAddr none) 0 false false)
      (.inet 0x5000 0x100007f)
    ¬ (local_.isIpV6 = true ↔ local_.family = AF_INET6) ∧
      local_.family = AF_INET ∧ peer.family = AF_INET ∧ local_.ipNetEndian = peer.ipNetEndian ∧
      local_.portNetEndian = peer.portNetEndian ∧
      local_.isLoopbackIp .little = false ∧ peer.isLoopbackIp .little = true := by
  decide

end Endpoints

end Cooper.AddressFamily
