import EbpfNids.Net.Blocks
import EbpfNids.Backend.SocketLoop

/-!
# Which addresses are looked up outside

`get_ip_loc` compares the text of an address with four beginnings and answers
with the label of the internal network when one fits. Otherwise it asks the
location service, and the address is in the request.

Three of the beginnings end at a byte where a private block ends. The fourth,
`172.16.`, is the first sixteenth of `172.16.0.0/12`: the other private
addresses of that block are sent outside, and an address is treated as it should
be if and only if it is none of these (`kept_inside_iff`).
-/

set_option autoImplicit false

namespace EbpfNids.Backend

open Library Library.Decimal
open Net

/-- What a call of `get_ip_loc` sends outside, and what it answers. -/
structure Lookup where
  requests : List Text
  answer : Except PyExn Text

def locationUrl (ip : Text) : Text :=
  text "http://ip-api.com/json/" ++ ip ++ text "?lang=zh-CN"

/-- The request and the reading of its response, in the `try` of `get_ip_loc`. -/
def askLocation (env : Env) (ip : Text) : Lookup where
  requests := [locationUrl ip]
  answer :=
    match env.ipApi ip with
    | .error _ => .ok (text "获取失败")
    | .ok js =>
        match locationOf env js with
        | .error _ => .ok (text "获取失败")
        | .ok location => .ok location

/-- The loop over the beginnings, and the request when none of them fits. -/
def lookupIn (env : Env) (ip : Text) : List Text → Lookup
  | [] => askLocation env ip
  | pre :: rest =>
      if pre.isPrefixOf ip then ⟨[], .ok (text "内网-局域网")⟩ else lookupIn env ip rest

def lookupLoc (env : Env) : Json → Lookup
  | .str ip => lookupIn env ip privatePrefixes
  | _ => ⟨[], .error .attributeError⟩

/-! ## The loop -/

section Lookup

variable {env : Env} {ip : Text}

theorem lookupIn_eq (prefixes : List Text) :
    lookupIn env ip prefixes =
      if prefixes.any fun pre => pre.isPrefixOf ip then ⟨[], .ok (text "内网-局域网")⟩
      else askLocation env ip := by
  induction prefixes with
  | nil => rfl
  | cons pre rest ih =>
      rw [lookupIn, ih, List.any_cons]
      cases pre.isPrefixOf ip with
      | true => simp
      | false => simp

/-- The answer is that of the handlers' `getIpLoc`. -/
theorem answer_lookupLoc (env : Env) (ip : Json) : (lookupLoc env ip).answer = getIpLoc env ip := by
  cases ip with
  | str ip =>
      rw [lookupLoc, lookupIn_eq, getIpLoc]
      split
      · rfl
      · rw [askLocation]
        cases env.ipApi ip with
        | error e => rfl
        | ok js =>
            dsimp only
            cases locationOf env js with
            | error e => rfl
            | ok location => rfl
  | null => rfl
  | bool b => rfl
  | int z => rfl
  | float literal => rfl
  | arr items => rfl
  | obj fields => rfl

theorem any_isPrefixOf {prefixes : List Text} :
    (prefixes.any fun pre => pre.isPrefixOf ip) = true ↔ ∃ pre ∈ prefixes, pre <+: ip := by
  simp only [List.any_eq_true, List.isPrefixOf_iff_prefix]

/-- At most one request is made, for the address itself, and none exactly when
a beginning fits. -/
theorem requests_lookupLoc (env : Env) (ip : Text) :
    (lookupLoc env (.str ip)).requests =
      if ∃ pre ∈ privatePrefixes, pre <+: ip then [] else [locationUrl ip] := by
  rw [lookupLoc, lookupIn_eq]
  by_cases begins : ∃ pre ∈ privatePrefixes, pre <+: ip
  · rw [if_pos (any_isPrefixOf.mpr begins), if_pos begins]
  · rw [if_neg fun any => begins (any_isPrefixOf.mp any), if_neg begins]
    rfl

end Lookup

/-! ## Dotted quads -/

/-- The blocks of private and loopback addresses. -/
def internalBlocks : List (Quad × ℕ) :=
  [(⟨127, 0, 0, 0⟩, 8), (⟨10, 0, 0, 0⟩, 8), (⟨172, 16, 0, 0⟩, 12), (⟨192, 168, 0, 0⟩, 16)]

def Internal (q : Quad) : Prop := ∃ block ∈ internalBlocks, InBlock block.1 block.2 q

theorem internal_iff (q : Quad) :
    Internal q ↔ q.b0 = 127 ∨ q.b0 = 10 ∨ (q.b0 = 172 ∧ q.b1.toNat / 16 = 1) ∨
      (q.b0 = 192 ∧ q.b1 = 168) := by
  simp only [Internal, internalBlocks, List.mem_cons, List.not_mem_nil, or_false, exists_eq_or_imp,
    exists_eq_left, inBlock_byte, inBlock_byte_and_half, inBlock_two_bytes]
  rfl

theorem privatePrefixes_eq :
    privatePrefixes =
      [decimal 127 ++ [46], decimal 192 ++ 46 :: (decimal 168 ++ [46]), decimal 10 ++ [46],
        decimal 172 ++ 46 :: (decimal 16 ++ [46])] := by
  decide

/-- The beginnings, as conditions on the bytes. -/
theorem prefix_iff (q : Quad) :
    (∃ pre ∈ privatePrefixes, pre <+: inetNtoa q) ↔
      q.b0 = 127 ∨ q.b0 = 10 ∨ (q.b0 = 172 ∧ q.b1 = 16) ∨ (q.b0 = 192 ∧ q.b1 = 168) := by
  simp only [privatePrefixes_eq, List.mem_cons, List.not_mem_nil, or_false, exists_eq_or_imp,
    exists_eq_left, prefix_byte, prefix_two_bytes, ← UInt8.toNat_inj]
  constructor
  · rintro (h | ⟨h, k⟩ | h | ⟨h, k⟩)
    · exact Or.inl h.symm
    · exact Or.inr (Or.inr (Or.inr ⟨h.symm, k.symm⟩))
    · exact Or.inr (Or.inl h.symm)
    · exact Or.inr (Or.inr (Or.inl ⟨h.symm, k.symm⟩))
  · rintro (h | h | ⟨h, k⟩ | ⟨h, k⟩)
    · exact Or.inl h.symm
    · exact Or.inr (Or.inr (Or.inl h.symm))
    · exact Or.inr (Or.inr (Or.inr ⟨h.symm, k.symm⟩))
    · exact Or.inr (Or.inl ⟨h.symm, k.symm⟩)

/-! ## Internal addresses stay inside -/

/-- The label of the internal network is given without a request exactly for the
internal addresses, and exactly the others are looked up, each with one
request. -/
def KeptInside (env : Env) (q : Quad) : Prop :=
  let call := lookupLoc env (.str (inetNtoa q))
  (call.answer = .ok (text "内网-局域网") ∧ call.requests = [] ↔ Internal q) ∧
    (call.requests = [locationUrl (inetNtoa q)] ↔ ¬ Internal q)

/-- Without a request the answer is the label of the internal network. -/
theorem keptInside_iff_agree {env : Env} {q : Quad} :
    KeptInside env q ↔ ((∃ pre ∈ privatePrefixes, pre <+: inetNtoa q) ↔ Internal q) := by
  have requests := requests_lookupLoc env (inetNtoa q)
  have answer : (∃ pre ∈ privatePrefixes, pre <+: inetNtoa q) →
      (lookupLoc env (.str (inetNtoa q))).answer = .ok (text "内网-局域网") := by
    intro begins
    rw [lookupLoc, lookupIn_eq, if_pos (any_isPrefixOf.mpr begins)]
  rw [KeptInside]
  by_cases begins : ∃ pre ∈ privatePrefixes, pre <+: inetNtoa q
  · rw [if_pos begins] at requests
    have asked : ([] : List Text) ≠ [locationUrl (inetNtoa q)] := (List.cons_ne_nil _ _).symm
    simp only [requests, answer begins, and_self, begins, true_iff, asked, false_iff, not_not]
  · rw [if_neg begins] at requests
    have asked : [locationUrl (inetNtoa q)] ≠ [] := List.cons_ne_nil _ _
    simp only [requests, asked, and_false, begins, false_iff, true_iff, and_self]

/-- **Only the rest of 172.16.0.0/12 leaks.** An address is kept inside exactly
when it should be if and only if it is not one of 172.17.0.0 to
172.31.255.255. -/
theorem kept_inside_iff (env : Env) (q : Quad) :
    KeptInside env q ↔ ¬ (q.b0 = 172 ∧ 17 ≤ q.b1.toNat ∧ q.b1.toNat ≤ 31) := by
  rw [keptInside_iff_agree, prefix_iff, internal_iff]
  simp only [← UInt8.toNat_inj]
  have b127 : (127 : UInt8).toNat = 127 := rfl
  have b10 : (10 : UInt8).toNat = 10 := rfl
  have b172 : (172 : UInt8).toNat = 172 := rfl
  have b192 : (192 : UInt8).toNat = 192 := rfl
  have b168 : (168 : UInt8).toNat = 168 := rfl
  have b16 : (16 : UInt8).toNat = 16 := rfl
  rw [b127, b10, b172, b192, b168, b16]
  omega

/-- The first address that a container gets is looked up outside. -/
theorem container_address_leaks : ¬ KeptInside calmEnv ⟨172, 17, 0, 1⟩ := by
  rw [keptInside_iff_agree, prefix_iff, internal_iff]
  decide

/-- An alert of an address that is kept inside is stored without the location
service: what it would answer makes no difference. -/
theorem saveAlert_of_private {env : Env} {fields : List (Text × Json)} {ip : Text}
    (source : getD fields "src_ip" (.str []) = .str ip)
    (begins : ∃ pre ∈ privatePrefixes, pre <+: ip)
    (answers : Text → Except PyExn Json) (world : World) :
    saveAlert { env with ipApi := answers } fields world = saveAlert env fields world := by
  have inside : ∀ e : Env, getIpLoc e (.str ip) = .ok (text "内网-局域网") := by
    intro e
    rw [getIpLoc, if_pos (any_isPrefixOf.mpr begins)]
  have reads : alertFields { env with ipApi := answers } fields = alertFields env fields := rfl
  have infers : callInference { env with ipApi := answers } fields = callInference env fields := rfl
  rw [saveAlert, saveAlert, reads, infers]
  cases read : alertFields env fields with
  | error e => rfl
  | ok row =>
      have address : row.srcIp = .str ip := by
        rw [alertFields] at read
        split at read
        · cases read
        · rw [← Except.ok.inj read]
          exact source
      dsimp only
      rw [address, inside, inside]
      rfl

end EbpfNids.Backend
