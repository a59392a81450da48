import NotiService.Webhook

/-! Which addresses the guard of `WebhookProvider` lets through: the public unicast addresses, and
with them the multicast and the reserved ones, which no range of the guard covers. -/

namespace NotiService
open Foundation

namespace IpAddr

def block4 (a b c d len : Nat) : Cidr 32 :=
  ⟨BitVec.ofNat 32 (a * 2 ^ 24 + b * 2 ^ 16 + c * 2 ^ 8 + d), len⟩

/-- A block of IPv6 addresses by the first segment. -/
def block6 (segment len : Nat) : Cidr 128 := ⟨BitVec.ofNat 128 (segment * 2 ^ 112), len⟩

def multicast4 : Cidr 32 := block4 224 0 0 0 4

def reserved4 : Cidr 32 := block4 240 0 0 0 4

def multicast6 : Cidr 128 := block6 0xff00 8

def mapped : Cidr 128 := ⟨BitVec.ofNat 128 (0xffff * 2 ^ 32), 96⟩

/-- The special ranges of IPv4 below the multicast range. -/
def special4 : List (Cidr 32) :=
  [block4 0 0 0 0 8, block4 10 0 0 0 8, block4 100 64 0 0 10, block4 127 0 0 0 8,
    block4 169 254 0 0 16, block4 172 16 0 0 12, block4 192 168 0 0 16, block4 192 0 2 0 24,
    block4 198 51 100 0 24, block4 203 0 113 0 24]

def special6 : List (Cidr 128) :=
  [⟨0, 128⟩, ⟨1, 128⟩, block6 0xfc00 7, block6 0xfe80 10]

def PublicV4 (a : BitVec 32) : Prop := ∀ c ∈ special4 ++ [multicast4, reserved4], ¬ c.Contains a

instance (a : BitVec 32) : Decidable (PublicV4 a) :=
  inferInstanceAs (Decidable (∀ c ∈ special4 ++ [multicast4, reserved4], ¬ c.Contains a))

def PublicUnicast : IpAddr → Prop
  | .v4 a => PublicV4 a
  | .v6 a => (∀ c ∈ special6 ++ [multicast6], ¬ c.Contains a) ∧
    (mapped.Contains a → PublicV4 (a.extractLsb' 0 32))

instance : DecidablePred PublicUnicast
  | .v4 a => inferInstanceAs (Decidable (PublicV4 a))
  | .v6 a => inferInstanceAs (Decidable ((∀ c ∈ special6 ++ [multicast6], ¬ c.Contains a) ∧
    (mapped.Contains a → PublicV4 (a.extractLsb' 0 32))))

/-- A multicast or reserved address other than the broadcast address. -/
def UnlistedV4 (a : BitVec 32) : Prop :=
  (multicast4.Contains a ∨ reserved4.Contains a) ∧ a ≠ 0xffffffff

instance (a : BitVec 32) : Decidable (UnlistedV4 a) :=
  inferInstanceAs (Decidable ((_ ∨ _) ∧ _))

/-- A multicast address, or a reserved one of IPv4, that no range of the guard covers. -/
def Unlisted : IpAddr → Prop
  | .v4 a => UnlistedV4 a
  | .v6 a => multicast6.Contains a ∨ mapped.Contains a ∧ UnlistedV4 (a.extractLsb' 0 32)

instance : DecidablePred Unlisted
  | .v4 a => inferInstanceAs (Decidable (UnlistedV4 a))
  | .v6 a => inferInstanceAs
    (Decidable (multicast6.Contains a ∨ mapped.Contains a ∧ UnlistedV4 (a.extractLsb' 0 32)))

end IpAddr

namespace Webhook
open IpAddr

section Ipv4

variable {a : BitVec 32}

theorem toNat_octet (a : BitVec 32) (i : Nat) :
    (octet a i).toNat = a.toNat / 2 ^ (24 - 8 * i) % 256 := by
  rw [octet, BitVec.extractLsb'_toNat, Nat.shiftRight_eq_div_pow]

theorem octet_mask {x : BitVec 8} : x &&& 0xc0 = 64 ↔ x.toNat / 64 = 1 :=
  Cidr.and_mask_eq_iff (k := 6) (p := 64) (by decide)

theorem block4_contains (x y z t len : Nat) : (block4 x y z t len).Contains a ↔
    a.toNat / 2 ^ (32 - len) =
      (x * 2 ^ 24 + y * 2 ^ 16 + z * 2 ^ 8 + t) % 2 ^ 32 / 2 ^ (32 - len) := by
  rw [Cidr.contains_iff_toNat, block4, BitVec.toNat_ofNat]

theorem octet_eq (a : BitVec 32) (i x : Nat) (hx : x < 256) :
    octet a i = BitVec.ofNat 8 x ↔ a.toNat / 2 ^ (24 - 8 * i) % 256 = x := by
  rw [← BitVec.toNat_inj, toNat_octet, BitVec.toNat_ofNat, Nat.mod_eq_of_lt hx]

theorem contains_8 {x : Nat} (hx : x < 256) :
    (block4 x 0 0 0 8).Contains a ↔ octet a 0 = BitVec.ofNat 8 x := by
  have hlt := a.isLt
  rw [block4_contains, octet_eq a 0 x hx]
  omega

theorem contains_16 {x y : Nat} (hx : x < 256) (hy : y < 256) : (block4 x y 0 0 16).Contains a ↔
    octet a 0 = BitVec.ofNat 8 x ∧ octet a 1 = BitVec.ofNat 8 y := by
  have hlt := a.isLt
  rw [block4_contains, octet_eq a 0 x hx, octet_eq a 1 y hy]
  omega

theorem contains_24 {x y z : Nat} (hx : x < 256) (hy : y < 256) (hz : z < 256) :
    (block4 x y z 0 24).Contains a ↔ (octet a 0 = BitVec.ofNat 8 x ∧ octet a 1 = BitVec.ofNat 8 y) ∧
      octet a 2 = BitVec.ofNat 8 z := by
  have hlt := a.isLt
  rw [block4_contains, octet_eq a 0 x hx, octet_eq a 1 y hy, octet_eq a 2 z hz]
  omega

theorem contains_private : (block4 172 16 0 0 12).Contains a ↔
    (octet a 0 = 172 ∧ 16 ≤ octet a 1) ∧ octet a 1 ≤ 31 := by
  have hlt := a.isLt
  have hoctet : octet a 0 = 172 ↔ _ := octet_eq a 0 172 (by decide)
  rw [block4_contains, BitVec.le_def, BitVec.le_def, toNat_octet, hoctet]
  simp only [BitVec.reduceToNat]
  omega

theorem contains_shared : (block4 100 64 0 0 10).Contains a ↔
    octet a 0 = 100 ∧ octet a 1 &&& 0xc0 = 64 := by
  have hlt := a.isLt
  have hoctet : octet a 0 = 100 ↔ _ := octet_eq a 0 100 (by decide)
  rw [block4_contains, octet_mask, toNat_octet, hoctet]
  omega

theorem isPrivate_iff : isPrivate a = true ↔ (block4 10 0 0 0 8).Contains a ∨
    (block4 172 16 0 0 12).Contains a ∨ (block4 192 168 0 0 16).Contains a := by
  rw [contains_8 (by decide), contains_private, contains_16 (by decide) (by decide), ← or_assoc]
  simp only [isPrivate, Bool.or_eq_true, Bool.and_eq_true, decide_eq_true_eq]
  rfl

theorem isDocumentation_iff : isDocumentation a = true ↔ (block4 192 0 2 0 24).Contains a ∨
    (block4 198 51 100 0 24).Contains a ∨ (block4 203 0 113 0 24).Contains a := by
  rw [contains_24 (by decide) (by decide) (by decide),
    contains_24 (by decide) (by decide) (by decide),
    contains_24 (by decide) (by decide) (by decide), ← or_assoc]
  simp only [isDocumentation, Bool.or_eq_true, Bool.and_eq_true, decide_eq_true_eq]
  rfl

/-- The guard on IPv4: the special ranges below multicast, and the broadcast address. -/
theorem isBlockedV4_iff : isBlockedV4 a = true ↔
    (∃ c ∈ special4, c.Contains a) ∨ a = 0xffffffff := by
  have hloopback : isLoopback a = true ↔ (block4 127 0 0 0 8).Contains a := by
    rw [contains_8 (by decide), isLoopback, decide_eq_true_eq]
    rfl
  have hlinkLocal : isLinkLocal a = true ↔ (block4 169 254 0 0 16).Contains a := by
    rw [contains_16 (by decide) (by decide), isLinkLocal, Bool.and_eq_true, decide_eq_true_eq,
      decide_eq_true_eq]
    rfl
  have hzero : octet a 0 = 0 ↔ (block4 0 0 0 0 8).Contains a := (contains_8 (by decide)).symm
  have hunspecified : isUnspecified a = true → octet a 0 = 0 := by
    rw [isUnspecified, decide_eq_true_eq]
    rintro rfl
    rfl
  simp only [isBlockedV4, isBroadcast, Bool.or_eq_true, Bool.and_eq_true, decide_eq_true_eq,
    hloopback, isPrivate_iff, hlinkLocal, isDocumentation_iff, ← contains_shared, special4,
    List.mem_cons, List.not_mem_nil, or_false, exists_eq_or_imp, exists_eq_left]
  rw [hzero] at hunspecified ⊢
  grind only

theorem special4_lt (h : ∃ c ∈ special4, c.Contains a) : a.toNat / 2 ^ 28 < 14 := by
  obtain ⟨c, hc, hcontains⟩ := h
  have hall : ∀ c ∈ special4, 4 ≤ c.len ∧ c.base.toNat / 2 ^ (32 - c.len) / 2 ^ (c.len - 4) < 14 ∧
      2 ^ 28 = 2 ^ (32 - c.len) * 2 ^ (c.len - 4) := by decide
  obtain ⟨-, hbase, hpow⟩ := hall c hc
  rwa [hpow, ← Nat.div_div_eq_div_mul, (Cidr.contains_iff_toNat c a).mp hcontains]

theorem multicast4_iff : multicast4.Contains a ↔ a.toNat / 2 ^ 28 = 14 := block4_contains ..

theorem reserved4_iff : reserved4.Contains a ↔ a.toNat / 2 ^ 28 = 15 := block4_contains ..

theorem not_publicV4_of_unlisted (h : UnlistedV4 a) : ¬ PublicV4 a := by
  intro hpublic
  rcases h.1 with hmulticast | hreserved
  · exact hpublic multicast4 (by simp) hmulticast
  · exact hpublic reserved4 (by simp) hreserved

theorem isBlockedV4_eq_false : isBlockedV4 a = false ↔ PublicV4 a ∨ UnlistedV4 a := by
  rw [← Bool.not_eq_true, isBlockedV4_iff]
  constructor
  · intro h
    obtain ⟨hspecial, hbroadcast⟩ := not_or.mp h
    by_cases hhigh : multicast4.Contains a ∨ reserved4.Contains a
    · exact .inr ⟨hhigh, hbroadcast⟩
    · refine .inl fun c hc hcontains => ?_
      rcases List.mem_append.mp hc with hc | hc
      · exact hspecial ⟨c, hc, hcontains⟩
      · rcases List.mem_cons.mp hc with rfl | hc
        · exact hhigh (.inl hcontains)
        · exact hhigh (.inr (List.mem_singleton.mp hc ▸ hcontains))
  · rintro (hpublic | ⟨hhigh, hbroadcast⟩) (hspecial | rfl)
    · obtain ⟨c, hc, hcontains⟩ := hspecial
      exact hpublic c (List.mem_append_left _ hc) hcontains
    · exact hpublic reserved4 (by simp) (by decide)
    · have hlow := special4_lt hspecial
      rw [multicast4_iff, reserved4_iff] at hhigh
      omega
    · exact hbroadcast rfl

end Ipv4

section Ipv6

variable {a : BitVec 128}

theorem toNat_segment₀ (a : BitVec 128) : (segment₀ a).toNat = a.toNat / 2 ^ 112 := by
  have hlt := a.isLt
  rw [segment₀, BitVec.extractLsb'_toNat, Nat.shiftRight_eq_div_pow]
  omega

theorem block6_contains {segment : Nat} (len : Nat) (h : segment < 2 ^ 16) (hlen : len ≤ 16) :
    (block6 segment len).Contains a ↔
      a.toNat / 2 ^ 112 / 2 ^ (16 - len) = segment / 2 ^ (16 - len) := by
  have hpow : 2 ^ (128 - len) = 2 ^ 112 * 2 ^ (16 - len) := by
    rw [← Nat.pow_add]
    congr 1
    omega
  rw [Cidr.contains_iff_toNat, block6, BitVec.toNat_ofNat, Nat.mod_eq_of_lt (by omega), hpow,
    ← Nat.div_div_eq_div_mul, ← Nat.div_div_eq_div_mul, Nat.mul_div_cancel _ (by decide)]

theorem contains_uniqueLocal : (block6 0xfc00 7).Contains a ↔ segment₀ a &&& 0xfe00 = 0xfc00 := by
  rw [block6_contains 7 (by decide) (by decide), ← toNat_segment₀]
  exact (Cidr.and_mask_eq_iff (k := 9) (p := 0xfc00) (by decide)).symm

theorem contains_linkLocal : (block6 0xfe80 10).Contains a ↔ segment₀ a &&& 0xffc0 = 0xfe80 := by
  rw [block6_contains 10 (by decide) (by decide), ← toNat_segment₀]
  exact (Cidr.and_mask_eq_iff (k := 6) (p := 0xfe80) (by decide)).symm

theorem multicast6_iff : multicast6.Contains a ↔ a.toNat / 2 ^ 112 / 2 ^ 8 = 255 :=
  block6_contains 8 (by decide) (by decide)

theorem mapped_iff : mapped.Contains a ↔ a.toNat / 2 ^ 32 = 0xffff := by
  rw [Cidr.contains_iff_toNat]
  rfl

theorem toIpv4Mapped_eq : toIpv4Mapped a =
    if mapped.Contains a then some (a.extractLsb' 0 32) else none := by
  have hlt := a.isLt
  refine if_congr ?_ rfl rfl
  rw [mapped_iff, ← BitVec.toNat_inj, ← BitVec.toNat_inj, BitVec.extractLsb'_toNat,
    BitVec.extractLsb'_toNat, Nat.shiftRight_eq_div_pow, Nat.shiftRight_eq_div_pow]
  simp only [BitVec.reduceToNat]
  omega

theorem contains_single (b : BitVec 128) : (Cidr.mk b 128).Contains a ↔ a = b := by
  simp [Cidr.Contains]

theorem special6_iff : (∃ c ∈ special6, c.Contains a) ↔
    a = 0 ∨ a = 1 ∨ (block6 0xfc00 7).Contains a ∨ (block6 0xfe80 10).Contains a := by
  simp only [special6, List.mem_cons, List.not_mem_nil, or_false, exists_eq_or_imp, exists_eq_left,
    contains_single]

theorem special6_disjoint (h : ∃ c ∈ special6, c.Contains a) :
    ¬ multicast6.Contains a ∧ ¬ mapped.Contains a := by
  rw [special6_iff, block6_contains 7 (by decide) (by decide),
    block6_contains 10 (by decide) (by decide)] at h
  rw [multicast6_iff, mapped_iff]
  rcases h with rfl | rfl | h | h
  · decide
  · decide
  · omega
  · omega

theorem not_mapped_of_multicast (h : multicast6.Contains a) : ¬ mapped.Contains a := by
  rw [multicast6_iff] at h
  rw [mapped_iff]
  omega

theorem isBlockedIp_v6 : isBlockedIp (.v6 a) = true ↔ (∃ c ∈ special6, c.Contains a) ∨
    mapped.Contains a ∧ isBlockedV4 (a.extractLsb' 0 32) = true := by
  have hmapped : (toIpv4Mapped a).any isBlockedV4 = true ↔
      mapped.Contains a ∧ isBlockedV4 (a.extractLsb' 0 32) = true := by
    rw [toIpv4Mapped_eq]
    by_cases h : mapped.Contains a <;> simp [h]
  rw [special6_iff, contains_uniqueLocal, contains_linkLocal]
  simp only [isBlockedIp, Bool.or_eq_true, decide_eq_true_eq, hmapped]
  grind only

end Ipv6

theorem not_publicUnicast_of_unlisted {ip : IpAddr} (h : ip.Unlisted) : ¬ ip.PublicUnicast := by
  cases ip with
  | v4 a => exact not_publicV4_of_unlisted h
  | v6 a =>
    rintro ⟨hspecial, hlow⟩
    rcases h with hmulticast | ⟨hmapped, hunlisted⟩
    · exact hspecial multicast6 (by simp) hmulticast
    · exact not_publicV4_of_unlisted hunlisted (hlow hmapped)

theorem isBlockedIp_eq_false (ip : IpAddr) :
    isBlockedIp ip = false ↔ ip.PublicUnicast ∨ ip.Unlisted := by
  cases ip with
  | v4 a => exact isBlockedV4_eq_false
  | v6 a =>
    rw [← Bool.not_eq_true, isBlockedIp_v6]
    constructor
    · intro h
      obtain ⟨hspecial, hmapped⟩ := not_or.mp h
      by_cases hmulticast : multicast6.Contains a
      · exact .inr (.inl hmulticast)
      by_cases hunlisted : mapped.Contains a ∧ UnlistedV4 (a.extractLsb' 0 32)
      · exact .inr (.inr hunlisted)
      refine .inl ⟨fun c hc hcontains => ?_, fun hm => ?_⟩
      · rcases List.mem_append.mp hc with hc | hc
        · exact hspecial ⟨c, hc, hcontains⟩
        · exact hmulticast (List.mem_singleton.mp hc ▸ hcontains)
      · have hlow : isBlockedV4 (a.extractLsb' 0 32) = false := by
          simpa [hm] using hmapped
        exact (isBlockedV4_eq_false.mp hlow).resolve_right fun h => hunlisted ⟨hm, h⟩
    · rintro (⟨hpublic, hlow⟩ | hunlisted) (hspecial | ⟨hmapped, hblocked⟩)
      · obtain ⟨c, hc, hcontains⟩ := hspecial
        exact hpublic c (List.mem_append_left _ hc) hcontains
      · rw [isBlockedV4_eq_false.mpr (.inl (hlow hmapped))] at hblocked
        cases hblocked
      · obtain ⟨hmulticast, hmapped⟩ := special6_disjoint hspecial
        rcases hunlisted with h | ⟨h, -⟩
        · exact hmulticast h
        · exact hmapped h
      · rcases hunlisted with h | ⟨-, h⟩
        · exact not_mapped_of_multicast h hmapped
        · rw [isBlockedV4_eq_false.mpr (.inr h)] at hblocked
          cases hblocked

end Webhook

/-- What the resolver, the client's builder and the network answer. -/
structure Net where
  lookupHost : String → Nat → Except String (List SocketAddr)
  buildClient : Nat → String → SocketAddr → Except String Unit
  post : WebhookRequest → Except String Nat
  newV4 : Uuid

def Net.answer (net : Net) : {β : Type} → WebhookOp β → β
  | _, .lookupHost host port => net.lookupHost host port
  | _, .buildClient timeoutSecs host pinned => net.buildClient timeoutSecs host pinned
  | _, .post request => net.post request
  | _, .newV4 => net.newV4

namespace Webhook

def issued (env : WebhookEnv) (p : WebhookProvider) (net : Net) (recipient content : String) :
    List WebhookRequest := (send env p recipient content).shown net.answer WebhookOp.request

def Guarded (env : WebhookEnv) (p : WebhookProvider) (net : Net) (recipient content : String) :
    Prop :=
  ∀ r ∈ issued env p net recipient content,
    (r.url.scheme = "http" ∨ r.url.scheme = "https") ∧ r.pinned.ip.PublicUnicast

variable {env : WebhookEnv} {p : WebhookProvider} {net : Net} {recipient content : String}

theorem shown_afterPost (answer : Except String Nat) :
    (afterPost env recipient answer).shown net.answer WebhookOp.request = [] := by
  cases answer with
  | error e => rfl
  | ok status => by_cases h : 200 ≤ status ∧ status < 300 <;> simp [afterPost, h, WebhookOp.request]

theorem mem_postPinned {url : WebhookUrl} {host : String} {a : SocketAddr} {r : WebhookRequest} :
    r ∈ (postPinned env p recipient content url host a).shown net.answer WebhookOp.request ↔
      net.buildClient p.timeoutSecs host a = .ok () ∧
        r = ⟨url, host, a, contentType content, content⟩ := by
  have hbuild : net.answer (.buildClient p.timeoutSecs host a) =
    net.buildClient p.timeoutSecs host a := rfl
  rw [postPinned, Program.shown_perform, hbuild]
  cases net.buildClient p.timeoutSecs host a with
  | error e => simp [WebhookOp.request]
  | ok _ => simp [WebhookOp.request, shown_afterPost]

theorem mem_issued {r : WebhookRequest} (hp : p.blockPrivate = true) :
    r ∈ issued env p net recipient content ↔ ∃ url host a others,
      env.parseUrl recipient = .ok url ∧ (url.scheme = "http" ∨ url.scheme = "https") ∧
      url.hostStr = some host ∧
      net.lookupHost host (url.portOrKnownDefault.getD 0) = .ok (a :: others) ∧
      (∀ b ∈ a :: others, isBlockedIp b.ip = false) ∧
      net.buildClient p.timeoutSecs host a = .ok () ∧
      r = ⟨url, host, a, contentType content, content⟩ := by
  constructor
  · intro h
    unfold issued send at h
    simp only [hp, ↓reduceIte] at h
    split at h
    · cases h
    · next url hurl =>
      split at h
      · cases h
      · next hscheme =>
        split at h
        · cases h
        · next host hhost =>
          rw [Program.shown_perform] at h
          have h : r ∈ Program.shown _ _ _ := h
          split at h
          · cases h
          · cases h
          · next a others hlookup =>
            split at h
            · cases h
            · next hnone =>
              obtain ⟨hbuild, hr⟩ := mem_postPinned.mp h
              exact ⟨url, host, a, others, hurl, not_not.mp hscheme, hhost, hlookup,
                by simpa [List.find?_eq_none] using hnone, hbuild, hr⟩
  · rintro ⟨url, host, a, others, hurl, hscheme, hhost, hlookup, hall, hbuild, rfl⟩
    have hanswer : net.answer (.lookupHost host (url.portOrKnownDefault.getD 0)) =
      .ok (a :: others) := hlookup
    rw [issued, send, hurl]
    dsimp only
    rw [if_neg (not_not.mpr hscheme), hhost]
    dsimp only
    rw [Program.shown_perform, hanswer]
    dsimp only
    have hnone : (a :: others).find? (isBlockedIp ·.ip) = none :=
      List.find?_eq_none.mpr fun b hb => Bool.eq_false_iff.mp (hall b hb)
    rw [if_pos hp, hnone]
    exact mem_postPinned.mpr ⟨hbuild, rfl⟩

/-- A send is guarded if and only if the first address that the resolver returns is no unlisted
one, or nothing is requested for another reason. -/
theorem guarded_iff (hp : p.blockPrivate = true) : Guarded env p net recipient content ↔
    ∀ url host a others, env.parseUrl recipient = .ok url →
      url.scheme = "http" ∨ url.scheme = "https" → url.hostStr = some host →
      net.lookupHost host (url.portOrKnownDefault.getD 0) = .ok (a :: others) →
      net.buildClient p.timeoutSecs host a = .ok () → a.ip.Unlisted →
      ∃ b ∈ others, isBlockedIp b.ip = true := by
  constructor
  · intro h url host a others hurl hscheme hhost hlookup hbuild hunlisted
    by_contra hnone
    have hall : ∀ b ∈ a :: others, isBlockedIp b.ip = false := by
      intro b hb
      rcases List.mem_cons.mp hb with rfl | hb
      · exact (isBlockedIp_eq_false _).mpr (.inr hunlisted)
      · exact Bool.eq_false_iff.mpr fun hblocked => hnone ⟨b, hb, hblocked⟩
    have hpublic := h _ ((mem_issued hp).mpr
      ⟨url, host, a, others, hurl, hscheme, hhost, hlookup, hall, hbuild, rfl⟩)
    exact not_publicUnicast_of_unlisted hunlisted hpublic.2
  · intro h r hr
    obtain ⟨url, host, a, others, hurl, hscheme, hhost, hlookup, hall, hbuild, rfl⟩ :=
      (mem_issued hp).mp hr
    have hfirst := (isBlockedIp_eq_false a.ip).mp (hall a (List.mem_cons_self ..))
    refine ⟨hscheme, hfirst.resolve_right fun hunlisted => ?_⟩
    obtain ⟨b, hb, hblocked⟩ := h url host a others hurl hscheme hhost hlookup hbuild hunlisted
    rw [hall b (List.mem_cons_of_mem _ hb)] at hblocked
    cases hblocked

def knowingUrl (recipient : String) (url : WebhookUrl) : WebhookEnv where
  parseUrl s := if s = recipient then .ok url else .error "relative URL without a base"
  showIp _ := "an address"
  statusText status := status.repr

def servingAt (a : SocketAddr) : Net := ⟨fun _ _ => .ok [a], fun _ _ _ => .ok (), fun _ => .ok 200,
    ⟨1⟩⟩

theorem guarded_iff_public : Guarded
    (knowingUrl "https://hooks.example.com/noti" ⟨"https", some "hooks.example.com", some 443⟩)
    ⟨10, true⟩ (servingAt ⟨.v4 0x5db8d822, 443⟩) "https://hooks.example.com/noti" "ok" := by
  refine (guarded_iff rfl).mpr fun url host a others _ _ _ hlookup _ hunlisted => ?_
  cases hlookup
  exact absurd hunlisted (by decide)

/-- A request goes to a multicast address. -/
theorem guarded_multicast : ¬ ∀ env (p : WebhookProvider) net recipient content,
    p.blockPrivate = true → Guarded env p net recipient content := by
  intro h
  have hguarded := h (knowingUrl "http://224.0.0.1/hook" ⟨"http", some "224.0.0.1", some 80⟩)
    ⟨10, true⟩ (servingAt ⟨.v4 0xe0000001, 80⟩) "http://224.0.0.1/hook" "ok" rfl _
    (List.mem_singleton_self _)
  exact absurd hguarded.2 (by decide)

end Webhook

end NotiService
