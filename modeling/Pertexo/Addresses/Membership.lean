import Pertexo.Addresses.AddressParsing
import Pertexo.Addresses.PrefixMatching

/-!
# Membership in networks

## Networks of numbers

A network is the numbers that share its leading bits. The networks of the policy
are given by texts, and each denotes its number.
-/

namespace Pertexo
namespace Addresses

open Library

def InIpv4Prefix (value : Nat) (network : String × Nat) : Prop :=
  exists number, DenotesIpv4 network.1.toList number ∧ LeadingBitsAgree 32 network.2 value number

def BlockedIpv4 (value : Nat) : Prop :=
  exists network, network ∈ BLOCKED_IPV4_PREFIXES ∧ InIpv4Prefix value network

def MetadataIpv4 (value : Nat) : Prop :=
  exists network, network ∈ METADATA_IPV4_PREFIXES ∧ InIpv4Prefix value network

def BlockedIpv6 (value : Nat) : Prop :=
  exists blocked, blocked ∈ BLOCKED_IPV6_PREFIXES ∧
    LeadingBitsAgree 128 blocked.prefixLength value (wordsValue blocked.network)

def GlobalUnicast (value : Nat) : Prop :=
  LeadingBitsAgree 128 3 value (0x2000 * 2 ^ 112)

def MetadataIpv6 (value : Nat) : Prop :=
  exists network, network ∈ METADATA_IPV6_PREFIXES ∧
    exists words, DenotesIpv6 network.1.toList words ∧
      LeadingBitsAgree 128 network.2 value (wordsValue words)

/-!
## Values
-/

theorem DenotesIpv4.parsed {text : List Char} {value : Nat} (h : DenotesIpv4 text value) :
    ipv4Number text = .ok value ∧
      ipv4Words text = .ok [value / 2 ^ 16, value % 2 ^ 16] ∧ value < 2 ^ 32 := by
  cases h with
  | quad quad =>
      have hlt := value_lt quad
      refine ⟨ipv4Number_text quad, ?_, hlt⟩
      rw [ipv4Words_text, ← words_of_quad, highWord_eq hlt, lowWord_eq hlt]

theorem wordsValue_eight (a b c d e f g h : Nat) :
    wordsValue [a, b, c, d, e, f, g, h] =
      a * 2 ^ 112 + b * 2 ^ 96 + c * 2 ^ 80 + d * 2 ^ 64 + e * 2 ^ 48 + f * 2 ^ 32 +
        g * 2 ^ 16 + h := by
  simp [wordsValue, blocksValue]
  omega

theorem wordsValue_ipv4 (value : Nat) :
    wordsValue [0, 0, 0, 0, 0, 0, value / 2 ^ 16, value % 2 ^ 16] = value := by
  rw [wordsValue_eight]
  omega

theorem eight_words {words : List Nat} (h : words.length = 8) :
    exists a b c d e f g i, words = [a, b, c, d, e, f, g, i] := by
  match words, h with
  | [a, b, c, d, e, f, g, i], _ => exact ⟨a, b, c, d, e, f, g, i, rfl⟩

/-!
## Metadata networks

Every text of the tables parses, and a metadata network is one of the parsed ones.
-/

theorem parsed_tables :
    (forall network, network ∈ METADATA_IPV4_PREFIXES -> network.2 ≤ 32 ∧
        exists metadata, metadata ∈ METADATA_NETWORKS ∧ metadata.family = .ipv4 ∧
          metadata.prefixLength = network.2 ∧ ipv4Words network.1.toList = .ok metadata.words) ∧
      (forall network, network ∈ METADATA_IPV6_PREFIXES -> 16 ≤ network.2 ∧ network.2 ≤ 128 ∧
        exists metadata, metadata ∈ METADATA_NETWORKS ∧ metadata.family = .ipv6 ∧
          metadata.prefixLength = network.2 ∧ ipv6Words network.1.toList = .ok metadata.words ∧
            wordAt metadata.words 0 ∉ [0x2002, 0, 0x64]) ∧
      (forall network, network ∈ BLOCKED_IPV4_PREFIXES ->
        network.2 ≤ 32 ∧ isIP network.1.toList = 4) ∧
      forall blocked, blocked ∈ BLOCKED_IPV6_PREFIXES ->
        blocked.network.length ≤ 8 ∧ blocked.prefixLength ≤ 128 ∧
          forall word, word ∈ blocked.network -> word < 2 ^ 16 := by
  decide

theorem embedding_networks :
    SIX_TO_FOUR = [0x2002, 0, 0, 0, 0, 0, 0, 0] ∧
      TRAILING_IPV4_NETWORKS =
        [{ network := [0, 0, 0, 0, 0, 0, 0, 0], prefixLength := 80 },
          { network := [0, 0, 0, 0, 0xffff, 0, 0, 0], prefixLength := 96 },
          { network := [0x64, 0xff9b, 0, 0, 0, 0, 0, 0], prefixLength := 96 },
          { network := [0x64, 0xff9b, 1, 0, 0, 0, 0, 0], prefixLength := 48 }] := by
  decide

theorem exists_metadata_ipv4 {network : String × Nat} (h : network ∈ METADATA_IPV4_PREFIXES)
    {number : Nat} (hdenotes : DenotesIpv4 network.1.toList number) :
    network.2 ≤ 32 ∧
      { family := .ipv4, words := [number / 2 ^ 16, number % 2 ^ 16],
        prefixLength := network.2 } ∈ METADATA_NETWORKS := by
  rcases parsed_tables.left network h with ⟨hlength, metadata, hmem, hfamily, hbits, hwords⟩
  have hsame := Except.ok.inj (hdenotes.parsed.right.left.symm.trans hwords)
  rw [hsame, ← hfamily, ← hbits]
  exact ⟨hbits ▸ hlength, hmem⟩

theorem inNetwork_ipv4 {value number length : Nat} (hvalue : value < 2 ^ 32)
    (hnumber : number < 2 ^ 32) (hlength : length ≤ 32)
    (h : LeadingBitsAgree 32 length value number) :
    inNetwork .ipv4 [value / 2 ^ 16, value % 2 ^ 16]
      { family := .ipv4, words := [number / 2 ^ 16, number % 2 ^ 16],
        prefixLength := length + 96 } = true := by
  have hwords {n : Nat} (hn : n < 2 ^ 32) :
      forall word, word ∈ [0, 0, 0, 0, 0, 0, n / 2 ^ 16, n % 2 ^ 16] -> IsWord word := by
    intro word hword
    simp only [List.mem_cons, List.not_mem_nil, or_false] at hword
    rw [IsWord]
    omega
  show matchesIpv6Prefix [0, 0, 0, 0, 0, 0, value / 2 ^ 16, value % 2 ^ 16]
    [0, 0, 0, 0, 0, 0, number / 2 ^ 16, number % 2 ^ 16] (length + 96) = true
  rw [matchesIpv6Prefix_iff (hwords hvalue) (by simp) (hwords hnumber) (by simp) (by omega),
    wordsValue_ipv4, wordsValue_ipv4]
  exact (leadingBitsAgree_widen 96 hlength hvalue hnumber).mpr h

theorem metadata_ipv4_words {value : Nat} (hvalue : value < 2 ^ 32) (h : MetadataIpv4 value) :
    METADATA_NETWORKS.any (fun network =>
      inNetwork .ipv4 [value / 2 ^ 16, value % 2 ^ 16]
        { network with
          prefixLength := match network.family with
            | .ipv4 => network.prefixLength + 96
            | .ipv6 => network.prefixLength }) = true := by
  rcases h with ⟨network, hnetwork, number, hdenotes, hagree⟩
  rcases exists_metadata_ipv4 hnetwork hdenotes with ⟨hlength, hmem⟩
  rw [List.any_eq_true]
  exact ⟨_, hmem, inNetwork_ipv4 hvalue hdenotes.parsed.right.right hlength hagree⟩

theorem isMetadataAddress_ipv4 {value : Nat} (hvalue : value < 2 ^ 32) (h : MetadataIpv4 value) :
    isMetadataAddress .ipv4 [value / 2 ^ 16, value % 2 ^ 16] = true :=
  metadata_ipv4_words hvalue h

/-!
## Embedded addresses
-/

/-- The forms of a 128-bit address that carry an IPv4 address. -/
inductive EmbedsIpv4 : Nat -> Nat -> Prop where
  | mapped {ipv4 : Nat} (h : ipv4 < 2 ^ 32) : EmbedsIpv4 (0xffff * 2 ^ 32 + ipv4) ipv4
  | compatible {ipv4 : Nat} (h : ipv4 < 2 ^ 32) : EmbedsIpv4 ipv4 ipv4
  | translated {ipv4 : Nat} (h : ipv4 < 2 ^ 32) : EmbedsIpv4 (0xffff * 2 ^ 48 + ipv4) ipv4
  | nat64 {ipv4 : Nat} (h : ipv4 < 2 ^ 32) : EmbedsIpv4 (0x64ff9b * 2 ^ 96 + ipv4) ipv4
  | localNat64 {between ipv4 : Nat} (hbetween : between < 2 ^ 48) (h : ipv4 < 2 ^ 32) :
      EmbedsIpv4 (0x64ff9b0001 * 2 ^ 80 + between * 2 ^ 32 + ipv4) ipv4
  | sixToFour {ipv4 rest : Nat} (h : ipv4 < 2 ^ 32) (hrest : rest < 2 ^ 80) :
      EmbedsIpv4 (0x2002 * 2 ^ 112 + ipv4 * 2 ^ 80 + rest) ipv4

theorem embeddedIpv4_of_embeds {words : List Nat} (hlength : words.length = 8)
    (hwords : forall word, word ∈ words -> word < 2 ^ 16) {ipv4 : Nat}
    (h : EmbedsIpv4 (wordsValue words) ipv4) :
    embeddedIpv4 words = some [ipv4 / 2 ^ 16, ipv4 % 2 ^ 16] := by
  rcases eight_words hlength with ⟨a, b, c, d, e, f, g, i, rfl⟩
  simp only [List.mem_cons, List.not_mem_nil, or_false, forall_eq_or_imp, forall_eq] at hwords
  rw [wordsValue_eight] at h
  rw [embeddedIpv4, embedding_networks.left, embedding_networks.right]
  rcases hwords with ⟨ha, hb, hc, hd, he, hf, hg, hi⟩
  generalize hvalue : a * 2 ^ 112 + b * 2 ^ 96 + c * 2 ^ 80 + d * 2 ^ 64 + e * 2 ^ 48 +
    f * 2 ^ 32 + g * 2 ^ 16 + i = value at h
  cases h with
  | mapped hlt =>
      have hzero : a = 0 ∧ b = 0 ∧ c = 0 ∧ d = 0 ∧ e = 0 ∧ f = 0xffff := by omega
      have hlast : g = ipv4 / 2 ^ 16 ∧ i = ipv4 % 2 ^ 16 := by omega
      rcases hzero with ⟨rfl, rfl, rfl, rfl, rfl, rfl⟩
      rw [← hlast.left, ← hlast.right]
      simp [matchesIpv6Prefix, wordAt, List.range_succ]
  | compatible hlt =>
      have hzero : a = 0 ∧ b = 0 ∧ c = 0 ∧ d = 0 ∧ e = 0 ∧ f = 0 := by omega
      have hlast : g = ipv4 / 2 ^ 16 ∧ i = ipv4 % 2 ^ 16 := by omega
      rcases hzero with ⟨rfl, rfl, rfl, rfl, rfl, rfl⟩
      rw [← hlast.left, ← hlast.right]
      simp [matchesIpv6Prefix, wordAt, List.range_succ]
  | translated hlt =>
      have hzero : a = 0 ∧ b = 0 ∧ c = 0 ∧ d = 0 ∧ e = 0xffff ∧ f = 0 := by omega
      have hlast : g = ipv4 / 2 ^ 16 ∧ i = ipv4 % 2 ^ 16 := by omega
      rcases hzero with ⟨rfl, rfl, rfl, rfl, rfl, rfl⟩
      rw [← hlast.left, ← hlast.right]
      simp [matchesIpv6Prefix, wordAt, List.range_succ]
  | nat64 hlt =>
      have hzero : a = 0x64 ∧ b = 0xff9b ∧ c = 0 ∧ d = 0 ∧ e = 0 ∧ f = 0 := by omega
      have hlast : g = ipv4 / 2 ^ 16 ∧ i = ipv4 % 2 ^ 16 := by omega
      rcases hzero with ⟨rfl, rfl, rfl, rfl, rfl, rfl⟩
      rw [← hlast.left, ← hlast.right]
      simp [matchesIpv6Prefix, wordAt, List.range_succ]
  | @localNat64 between _ hbetween hlt =>
      have hfirst : a = 0x64 ∧ b = 0xff9b ∧ c = 1 := by omega
      have hlast : g = ipv4 / 2 ^ 16 ∧ i = ipv4 % 2 ^ 16 := by omega
      rcases hfirst with ⟨rfl, rfl, rfl⟩
      rw [← hlast.left, ← hlast.right]
      simp [matchesIpv6Prefix, wordAt, List.range_succ]
  | @sixToFour _ rest hlt hrest =>
      have hfirst : a = 0x2002 ∧ b = ipv4 / 2 ^ 16 ∧ c = ipv4 % 2 ^ 16 := by omega
      rcases hfirst with ⟨rfl, hb', hc'⟩
      rw [← hb', ← hc']
      simp [matchesIpv6Prefix, wordAt, List.range_succ]

theorem wordAt_zero_of_matches {address network : List Nat} {length : Nat}
    (hlength : 16 ≤ length) (h : matchesIpv6Prefix address network length = true) :
    wordAt address 0 = wordAt network 0 := by
  rw [matchesIpv6Prefix, Bool.and_eq_true, List.all_eq_true] at h
  exact beq_iff_eq.mp (h.left 0 (List.mem_range.mpr (by omega)))

/-- An address outside the embedding forms, by its first word. -/
theorem embeddedIpv4_eq_none {words : List Nat} (hsix : wordAt words 0 ≠ 0x2002)
    (hzero : wordAt words 0 ≠ 0) (hnat : wordAt words 0 ≠ 0x64) : embeddedIpv4 words = none := by
  rw [embeddedIpv4, embedding_networks.left, embedding_networks.right, if_neg, if_neg]
  · rw [List.any_eq_true]
    intro hexists
    rcases hexists with ⟨network, hnetwork, hmatch⟩
    simp only [List.mem_cons, List.not_mem_nil, or_false] at hnetwork
    rcases hnetwork with rfl | rfl | rfl | rfl
    · have hfirst := wordAt_zero_of_matches (by decide) hmatch
      exact hzero hfirst
    · have hfirst := wordAt_zero_of_matches (by decide) hmatch
      exact hzero hfirst
    · have hfirst := wordAt_zero_of_matches (by decide) hmatch
      exact hnat hfirst
    · have hfirst := wordAt_zero_of_matches (by decide) hmatch
      exact hnat hfirst
  · intro hmatch
    have hfirst := wordAt_zero_of_matches (by decide) hmatch
    exact hsix hfirst

theorem exists_metadata_ipv6 {network : String × Nat} (h : network ∈ METADATA_IPV6_PREFIXES)
    {words : List Nat} (hdenotes : DenotesIpv6 network.1.toList words) :
    { family := .ipv6, words := words, prefixLength := network.2 } ∈ METADATA_NETWORKS ∧
      16 ≤ network.2 ∧ network.2 ≤ 128 ∧
        wordAt words 0 ≠ 0x2002 ∧ wordAt words 0 ≠ 0 ∧ wordAt words 0 ≠ 0x64 := by
  rcases parsed_tables.right.left network h with
    ⟨hlow, hhigh, metadata, hmem, hfamily, hbits, hwords, hfirst⟩
  have hsame := Except.ok.inj ((ipv6Words_of_denotes hdenotes).symm.trans hwords)
  rw [hsame, ← hfamily, ← hbits]
  exact ⟨hmem, hbits ▸ hlow, hbits ▸ hhigh, by simpa using hfirst⟩

theorem isMetadataAddress_ipv6 {words : List Nat} (hlength : words.length = 8)
    (hwords : forall word, word ∈ words -> word < 2 ^ 16)
    (h : MetadataIpv6 (wordsValue words)) : isMetadataAddress .ipv6 words = true := by
  rcases h with ⟨network, hnetwork, base, hdenotes, hagree⟩
  rcases exists_metadata_ipv6 hnetwork hdenotes with ⟨hmem, hlow, hhigh, hsix, hzero, hnat⟩
  have hmatch : matchesIpv6Prefix words base network.2 = true := by
    rw [matchesIpv6Prefix_iff hwords (by omega) hdenotes.words.right
      (by rw [hdenotes.words.left]) hhigh]
    exact hagree
  have hfirst := wordAt_zero_of_matches hlow hmatch
  rw [isMetadataAddress, embeddedIpv4_eq_none (hfirst ▸ hsix) (hfirst ▸ hzero) (hfirst ▸ hnat),
    List.any_eq_true]
  exact ⟨_, hmem, hmatch⟩

theorem isMetadataAddress_embedded {words : List Nat} (hlength : words.length = 8)
    (hwords : forall word, word ∈ words -> word < 2 ^ 16) {ipv4 : Nat} (hipv4 : ipv4 < 2 ^ 32)
    (hembeds : EmbedsIpv4 (wordsValue words) ipv4) (h : MetadataIpv4 ipv4) :
    isMetadataAddress .ipv6 words = true := by
  rw [isMetadataAddress, embeddedIpv4_of_embeds hlength hwords hembeds]
  exact metadata_ipv4_words hipv4 h

theorem EmbedsIpv4.ipv4_lt {value ipv4 : Nat} (h : EmbedsIpv4 value ipv4) : ipv4 < 2 ^ 32 := by
  cases h <;> assumption

/-!
## Public addresses
-/

theorem blocked_parse {network : String × Nat} (h : network ∈ BLOCKED_IPV4_PREFIXES) :
    network.2 ≤ 32 ∧ exists number, DenotesIpv4 network.1.toList number := by
  rcases parsed_tables.right.right.left network h with ⟨hlength, hfamily⟩
  exact ⟨hlength, denotes_of_isIP_four hfamily⟩

theorem someBlockedIpv4_of_mem {value : Nat} {networks : List (String × Nat)}
    (hparse : forall network, network ∈ networks ->
      network.2 ≤ 32 ∧ exists number, DenotesIpv4 network.1.toList number)
    {network : String × Nat} (hmem : network ∈ networks) (h : InIpv4Prefix value network) :
    someBlockedIpv4 value networks = .ok true := by
  induction networks with
  | nil => cases hmem
  | cons head rest ih =>
      rcases hparse head List.mem_cons_self with ⟨hlength, number, hnumber⟩
      rw [someBlockedIpv4, matchesBlockedIpv4, hnumber.parsed.left]
      cases hmatch : matchesIpv4Prefix value number head.2 with
      | true =>
          simp [bind, Except.bind, pure, Except.pure, hmatch]
      | false =>
          rcases List.mem_cons.mp hmem with rfl | hmem
          · rcases h with ⟨other, hother, hagree⟩
            have hsame : other = number :=
              Except.ok.inj (hother.parsed.left.symm.trans hnumber.parsed.left)
            rw [hsame] at hagree
            rw [(matchesIpv4Prefix_iff hlength).mpr hagree] at hmatch
            cases hmatch
          · have hrest := ih (fun other hother => hparse other (List.mem_cons_of_mem _ hother)) hmem
            simp [bind, Except.bind, pure, Except.pure, hmatch, hrest]

theorem assertPublicAddress_blocked_ipv4 {text : List Char} {value : Nat} (hfamily : isIP text = 4)
    (hdenotes : DenotesIpv4 text value) (h : BlockedIpv4 value) :
    assertPublicAddress text = .error "blocked address" := by
  rcases h with ⟨network, hnetwork, hprefixed⟩
  have hblocked := someBlockedIpv4_of_mem (fun _ hmem => blocked_parse hmem) hnetwork hprefixed
  rw [assertPublicAddress]
  dsimp only
  rw [if_pos hfamily, hdenotes.parsed.left, hdenotes.parsed.right.left]
  dsimp only [bind, Except.bind]
  split
  · rfl
  · rw [hblocked]
    rfl

theorem globalUnicast_iff {words : List Nat} (hlength : words.length = 8)
    (hwords : forall word, word ∈ words -> word < 2 ^ 16) :
    GlobalUnicast (wordsValue words) ↔
      (toInt32 (wordAt words 0) &&& toInt32 0xe000) = toInt32 0x2000 := by
  have hnetwork : forall word, word ∈ [0x2000] -> IsWord word := by
    intro word hword
    rw [List.mem_singleton.mp hword]
    show 0x2000 < 2 ^ 16
    decide
  have hvalue : wordsValue [0x2000] = 0x2000 * 2 ^ 112 := by simp [wordsValue, blocksValue]
  have hmatch := @matchesIpv6Prefix_iff words [0x2000] 3 hwords (by omega) hnetwork (by simp)
    (by decide)
  have hmask : shiftLeft (toInt32 0xffff) (16 - 3 % 16) &&& toInt32 0xffff = toInt32 0xe000 := by
    decide
  have hbase : toInt32 (wordAt [0x2000] 0) &&& toInt32 0xe000 = toInt32 0x2000 := by
    decide
  have hfirst : matchesIpv6Prefix words [0x2000] 3 =
      (toInt32 (wordAt words 0) &&& toInt32 0xe000 == toInt32 0x2000) := by
    show (true && (toInt32 (wordAt words 0) &&&
        (shiftLeft (toInt32 0xffff) (16 - 3 % 16) &&& toInt32 0xffff) ==
      toInt32 (wordAt [0x2000] 0) &&&
        (shiftLeft (toInt32 0xffff) (16 - 3 % 16) &&& toInt32 0xffff))) = _
    rw [hmask, hbase, Bool.true_and]
  rw [hvalue] at hmatch
  rw [GlobalUnicast, ← hmatch, hfirst, beq_iff_eq]

theorem assertPublicAddress_blocked_ipv6 {text : List Char} {words : List Nat}
    (hfamily : isIP text = 6) (hdenotes : DenotesIpv6 text words)
    (h : BlockedIpv6 (wordsValue words) ∨ ¬ GlobalUnicast (wordsValue words)) :
    assertPublicAddress text = .error "blocked address" := by
  rcases hdenotes.words with ⟨hlength, hwords⟩
  rw [assertPublicAddress]
  dsimp only
  rw [if_neg (by omega), if_pos hfamily, ipv6Words_of_denotes hdenotes]
  dsimp only [bind, Except.bind]
  by_cases hfirst : isMetadataAddress .ipv6 words = true ∨
      (toInt32 (wordAt words 0) &&& toInt32 0xe000) ≠ toInt32 0x2000
  · rw [if_pos hfirst]
  · rw [if_neg hfirst]
    rw [not_or, not_not] at hfirst
    cases h with
    | inl hblocked =>
        rcases hblocked with ⟨blocked, hmem, hagree⟩
        rcases parsed_tables.right.right.right blocked hmem with ⟨hshort, hfits, hsmall⟩
        have hmatch : matchesIpv6Prefix words blocked.network blocked.prefixLength = true :=
          (matchesIpv6Prefix_iff hwords (by omega) hsmall hshort hfits).mpr hagree
        rw [if_pos]
        rw [List.any_eq_true]
        exact ⟨blocked, hmem, hmatch⟩
    | inr houtside =>
        exact absurd ((globalUnicast_iff hlength hwords).mpr hfirst.right) houtside

/-!
## Private addresses
-/

theorem isAllowedPrivateAddress_metadata_ipv4 {text : List Char} {value : Nat}
    (hfamily : isIP text = 4) (hdenotes : DenotesIpv4 text value) (h : MetadataIpv4 value)
    (networks : List AllowedPrivateNetwork) :
    isAllowedPrivateAddress text networks = .ok false := by
  rw [isAllowedPrivateAddress]
  split
  · rfl
  · dsimp only
    rw [if_pos hfamily, hdenotes.parsed.right.left]
    dsimp only [bind, Except.bind]
    rw [if_pos (isMetadataAddress_ipv4 hdenotes.parsed.right.right h)]
    rfl

theorem isAllowedPrivateAddress_metadata_ipv6 {text : List Char} {words : List Nat}
    (hfamily : isIP text = 6) (hdenotes : DenotesIpv6 text words)
    (h : isMetadataAddress .ipv6 words = true) (networks : List AllowedPrivateNetwork) :
    isAllowedPrivateAddress text networks = .ok false := by
  rw [isAllowedPrivateAddress]
  split
  · rfl
  · dsimp only
    rw [if_neg (by omega), if_pos hfamily, ipv6Words_of_denotes hdenotes]
    dsimp only [bind, Except.bind]
    rw [if_pos h]
    rfl

/-!
## The policy

An address without a zone is read as the number it denotes, prefixes are matched on
the leading bits of numbers, and no spelling of a blocked address gets past the
policy. An address with a zone is refused before it is read.
-/

theorem address_policy :
    (forall text, isIP text = 4 -> exists value,
      DenotesIpv4 text value ∧ (forall other, DenotesIpv4 text other -> other = value) ∧
        ipv4Number text = .ok value ∧ value < 2 ^ 32 ∧
        (BlockedIpv4 value -> assertPublicAddress text = .error "blocked address") ∧
        (MetadataIpv4 value ->
          forall networks, isAllowedPrivateAddress text networks = .ok false)) ∧
    (forall text, isIP text = 6 -> '%' ∉ text -> exists words,
      DenotesIpv6 text words ∧ (forall other, DenotesIpv6 text other -> other = words) ∧
        ipv6Words text = .ok words ∧ wordsValue words < 2 ^ 128 ∧
        (BlockedIpv6 (wordsValue words) ∨ ¬ GlobalUnicast (wordsValue words) ->
          assertPublicAddress text = .error "blocked address") ∧
        (MetadataIpv6 (wordsValue words) ∨
            (exists ipv4, EmbedsIpv4 (wordsValue words) ipv4 ∧ MetadataIpv4 ipv4) ->
          forall networks, isAllowedPrivateAddress text networks = .ok false)) ∧
    (forall text, isIP text = 6 -> '%' ∈ text ->
      assertPublicAddress text = .error "scoped IPv6 is blocked" ∧
        forall networks, isAllowedPrivateAddress text networks ≠ .ok true) ∧
    (forall address network length, length ≤ 32 ->
      (matchesIpv4Prefix address network length = true ↔
        LeadingBitsAgree 32 length address network)) ∧
    forall address network length, length ≤ 128 ->
      address.length ≤ 8 -> (forall word, word ∈ address -> IsWord word) ->
      network.length ≤ 8 -> (forall word, word ∈ network -> IsWord word) ->
        (matchesIpv6Prefix address network length = true ↔
          LeadingBitsAgree 128 length (wordsValue address) (wordsValue network)) := by
  refine ⟨?_, ?_, ?_, ?_, ?_⟩
  · intro text hfamily
    rcases denotes_of_isIP_four hfamily with ⟨value, hdenotes⟩
    refine ⟨value, hdenotes, ?_, hdenotes.parsed.left, hdenotes.parsed.right.right, ?_, ?_⟩
    · intro other hother
      exact Except.ok.inj (hother.parsed.left.symm.trans hdenotes.parsed.left)
    · exact assertPublicAddress_blocked_ipv4 hfamily hdenotes
    · exact isAllowedPrivateAddress_metadata_ipv4 hfamily hdenotes
  · intro text hfamily hzone
    rcases denotes_of_isIP_six hfamily hzone with ⟨words, hdenotes⟩
    rcases hdenotes.words with ⟨hlength, hwords⟩
    refine ⟨words, hdenotes, ?_, ipv6Words_of_denotes hdenotes, ?_, ?_, ?_⟩
    · intro other hother
      exact Except.ok.inj
        ((ipv6Words_of_denotes hother).symm.trans (ipv6Words_of_denotes hdenotes))
    · have hlt := @blocksValue_lt 16 words hwords
      rw [hlength] at hlt
      rw [wordsValue, hlength, List.replicate_zero, List.append_nil]
      exact hlt
    · exact assertPublicAddress_blocked_ipv6 hfamily hdenotes
    · intro h
      apply isAllowedPrivateAddress_metadata_ipv6 hfamily hdenotes
      cases h with
      | inl hown => exact isMetadataAddress_ipv6 hlength hwords hown
      | inr hembedded =>
          rcases hembedded with ⟨ipv4, hembeds, hmetadata⟩
          exact isMetadataAddress_embedded hlength hwords hembeds.ipv4_lt hembeds hmetadata
  · intro text hfamily hzone
    have hwords := ipv6Words_of_zone hzone
    constructor
    · rw [assertPublicAddress]
      dsimp only
      rw [if_neg (by omega), if_pos hfamily, hwords]
      rfl
    · intro networks
      rw [isAllowedPrivateAddress]
      split
      · simp
      · dsimp only
        rw [if_neg (by omega), if_pos hfamily, hwords]
        simp [bind, Except.bind]
  · intro address network length hlength
    exact matchesIpv4Prefix_iff hlength
  · intro address network length hfits hlength haddress hlength' hnetwork
    exact matchesIpv6Prefix_iff haddress hlength hnetwork hlength' hfits

/-- An address that isIP accepts and the words of which are refused. -/
theorem zone_refused :
    isIP "fe80::1%eth0".toList = 6 ∧
      ipv6Words "fe80::1%eth0".toList = .error "scoped IPv6 is blocked" ∧
      isAllowedPrivateAddress "::ffff:169.254.169.254%1".toList
        [{ family := .ipv6, words := [0, 0, 0, 0, 0, 0, 0, 0], prefixLength := 0 }] ≠
          .ok false := by
  decide

theorem metadata_linkLocal : MetadataIpv4 0xa9fea9fe := by
  rcases denotes_of_isIP_four (show isIP "169.254.0.0".toList = 4 by decide) with
    ⟨number, hnumber⟩
  have hvalue : number = 0xa9fe0000 :=
    Except.ok.inj (hnumber.parsed.left.symm.trans
      (show ipv4Number "169.254.0.0".toList = .ok 0xa9fe0000 by decide))
  subst hvalue
  refine ⟨("169.254.0.0", 16), by decide, _, hnumber, ?_⟩
  rw [LeadingBitsAgree]
  decide

/-- The address of the instance metadata is never allowed, written as IPv4 or mapped into IPv6. -/
theorem address_policy_sample :
    (exists words, DenotesIpv6 "2001:DB8::00ff:192.0.2.33".toList words ∧
      ipv6Words "2001:DB8::00ff:192.0.2.33".toList = .ok words) ∧
    (forall networks, isAllowedPrivateAddress "169.254.169.254".toList networks = .ok false) ∧
    (forall networks,
      isAllowedPrivateAddress "::ffff:169.254.169.254".toList networks = .ok false) ∧
    assertPublicAddress "::ffff:169.254.169.254".toList = .error "blocked address" := by
  rcases address_policy with ⟨hipv4, hipv6, _⟩
  refine ⟨?_, ?_, ?_⟩
  · rcases hipv6 "2001:DB8::00ff:192.0.2.33".toList (by decide) (by decide) with
      ⟨words, hdenotes, _, hparsed, _⟩
    exact ⟨words, hdenotes, hparsed⟩
  · rcases hipv4 "169.254.169.254".toList (by decide) with
      ⟨value, _, _, hparsed, _, _, hmetadata⟩
    have hvalue : value = 0xa9fea9fe :=
      Except.ok.inj (hparsed.symm.trans
        (show ipv4Number "169.254.169.254".toList = .ok 0xa9fea9fe by decide))
    subst hvalue
    exact hmetadata metadata_linkLocal
  · rcases hipv6 "::ffff:169.254.169.254".toList (by decide) (by decide) with
      ⟨words, _, _, hparsed, _, hblocked, hmetadata⟩
    have hwords : words = [0, 0, 0, 0, 0, 0xffff, 0xa9fe, 0xa9fe] :=
      Except.ok.inj (hparsed.symm.trans (show ipv6Words "::ffff:169.254.169.254".toList =
        .ok [0, 0, 0, 0, 0, 0xffff, 0xa9fe, 0xa9fe] by decide))
    subst hwords
    constructor
    · have hmapped : EmbedsIpv4 (0xffff * 2 ^ 32 + 0xa9fea9fe) 0xa9fea9fe :=
        EmbedsIpv4.mapped (by decide)
      exact hmetadata (Or.inr ⟨0xa9fea9fe, hmapped, metadata_linkLocal⟩)
    · apply hblocked
      right
      rw [GlobalUnicast, LeadingBitsAgree]
      decide

end Addresses
end Pertexo
