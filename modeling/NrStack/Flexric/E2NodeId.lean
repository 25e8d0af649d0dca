import NrStack.Library.Compare

/-!
# The ids of E2 nodes

`e2ap_global_node_id.c` : the trees of the near-RT RIC and of an xApp are ordered by
`cmp_global_e2_node_id`, while `find_if` goes through them with `eq_global_e2_node_id`. Both look at
the CU-UP or DU id of a node only for some types, and not for the same ones : the equality for a
CU-UP and a DU, the comparator also for the other CUs, which have none when they are decoded
(`e2NodeOrder_iff`).
-/

namespace NrStack

/-! ## The ids -/

/-- `ngran_node_t` -/
inductive NgranNode where
  | eNB
  | ngENB
  | gNB
  | eNBCu
  | ngENBCu
  | gNBCu
  | eNBDu
  | gNBDu
  | eNBMbmsSta
  | gNBCuCp
  | gNBCuUp
  deriving DecidableEq, Repr

namespace NgranNode

/-- The values of the enumeration. -/
def toNat : NgranNode → Nat
  | eNB => 0
  | ngENB => 1
  | gNB => 2
  | eNBCu => 3
  | ngENBCu => 4
  | gNBCu => 5
  | eNBDu => 6
  | gNBDu => 7
  | eNBMbmsSta => 8
  | gNBCuCp => 9
  | gNBCuUp => 10

/-- `NODE_IS_CU` -/
def isCu (t : NgranNode) : Bool :=
  t = eNBCu || t = ngENBCu || t = gNBCu || t = gNBCuCp || t = gNBCuUp

/-- `NODE_IS_DU` -/
def isDu (t : NgranNode) : Bool :=
  t = eNBDu || t = gNBDu

/-- `NODE_IS_CUUP` -/
def isCuUp (t : NgranNode) : Bool :=
  t = gNBCuUp

theorem toNat_inj {t u : NgranNode} : t.toNat = u.toNat ↔ t = u := by
  cases t <;> cases u <;> decide

end NgranNode

/-- `e2ap_plmn_t` -/
structure E2apPlmn where
  mcc : UInt16
  mnc : UInt16
  mncDigitLen : UInt8
  deriving DecidableEq, Repr

/-- `e2ap_gnb_id_t` -/
structure E2apGnbId where
  nbId : UInt32
  unused : UInt32
  deriving DecidableEq, Repr

/-- `global_e2_node_id_t` -/
structure GlobalE2NodeId where
  type : NgranNode
  plmn : E2apPlmn
  nbId : E2apGnbId
  cuDuId : Option UInt64
  deriving DecidableEq, Repr

/-- `eq_e2ap_plmn` -/
def eqE2apPlmn (m0 m1 : E2apPlmn) : Bool :=
  if m0.mcc ≠ m1.mcc then false
  else if m0.mnc ≠ m1.mnc then false
  else if m0.mncDigitLen ≠ m1.mncDigitLen then false
  else true

/-- `cmp_e2ap_plmn` -/
def cmpE2apPlmn (m0 m1 : E2apPlmn) : Int :=
  if m0.mcc < m1.mcc then -1
  else if m0.mcc > m1.mcc then 1
  else if m0.mnc < m1.mnc then -1
  else if m0.mnc > m1.mnc then 1
  else if m0.mncDigitLen < m1.mncDigitLen then -1
  else if m0.mncDigitLen > m1.mncDigitLen then 1
  else 0

/-- `eq_e2ap_gnb_id` -/
def eqE2apGnbId (m0 m1 : E2apGnbId) : Bool :=
  if m0.nbId ≠ m1.nbId then false else if m0.unused ≠ m1.unused then false else true

/-- `eq_global_e2_node_id`, for ids at two addresses ; `none` is a failed assertion. -/
def eqGlobalE2NodeId (m0 m1 : GlobalE2NodeId) : Option Bool :=
  if m0.type ≠ m1.type then some false
  else if eqE2apPlmn m0.plmn m1.plmn = false then some false
  else if eqE2apGnbId m0.nbId m1.nbId = false then some false
  else if m0.type.isCuUp || m0.type.isDu then
    match m0.cuDuId, m1.cuDuId with
    | some a, some b => some (a = b)
    | _, _ => none
  else some true

/-- `cmp_global_e2_node_id`. The unused bits are compared the other way round. -/
def cmpGlobalE2NodeId (m0 m1 : GlobalE2NodeId) : Option Int :=
  if m0.type.toNat < m1.type.toNat then some (-1)
  else if m0.type.toNat > m1.type.toNat then some 1
  else
    let rc := cmpE2apPlmn m0.plmn m1.plmn
    if rc ≠ 0 then some rc
    else if m0.nbId.nbId < m1.nbId.nbId then some (-1)
    else if m0.nbId.nbId > m1.nbId.nbId then some 1
    else if m0.nbId.unused < m1.nbId.unused then some 1
    else if m0.nbId.unused > m1.nbId.unused then some (-1)
    else if m0.type.isCu || m0.type.isCuUp || m0.type.isDu then
      match m0.cuDuId, m1.cuDuId with
      | some a, some b => some (if a < b then -1 else if a > b then 1 else 0)
      | _, _ => none
    else some 0

/-! ## What is asked for -/

/-- On the ids of `S` no assertion fails, the comparator is antisymmetric and transitive, and it is 0
exactly for the ids that are equal. So the entry of a tree that compares 0 with an id is the one that
a search finds. -/
structure E2NodeOrder (S : Set GlobalE2NodeId) : Prop where
  defined : ∀ a ∈ S, ∀ b ∈ S, ∃ rc eq, cmpGlobalE2NodeId a b = some rc ∧
    eqGlobalE2NodeId a b = some eq ∧ (rc = 0 ↔ eq = true)
  antisymm : ∀ a ∈ S, ∀ b ∈ S, ∀ rc, cmpGlobalE2NodeId a b = some rc →
    cmpGlobalE2NodeId b a = some (-rc)
  trans : ∀ a ∈ S, ∀ b ∈ S, ∀ c ∈ S, ∀ x y, cmpGlobalE2NodeId a b = some x →
    cmpGlobalE2NodeId b c = some y → x ≤ 0 → y ≤ 0 →
      ∃ z, cmpGlobalE2NodeId a c = some z ∧ z ≤ 0 ∧ (z = 0 → x = 0 ∧ y = 0)
  select : ∀ nodes : List GlobalE2NodeId, (∀ n ∈ nodes, n ∈ S) → ∀ id ∈ S,
    nodes.find? (fun n => cmpGlobalE2NodeId id n = some 0) =
      nodes.find? fun n => eqGlobalE2NodeId id n = some true

/-- A CU that is not a CU-UP. -/
def NgranNode.isPlainCu (t : NgranNode) : Bool :=
  t.isCu && !t.isCuUp

/-- The nodes whose CU-UP or DU id the comparator asks for. -/
def NgranNode.isSplit (t : NgranNode) : Bool :=
  t.isCu || t.isDu

/-- Every id of a CU or a DU has one for the CU-UP or DU, and CUs that are not CU-UPs differ in more
than this one. -/
structure E2NodeIds (S : Set GlobalE2NodeId) : Prop where
  isSome : ∀ a ∈ S, a.type.isSplit → a.cuDuId.isSome
  unique : ∀ a ∈ S, ∀ b ∈ S, a.type.isPlainCu → a.type = b.type → a.plmn = b.plmn →
    a.nbId = b.nbId → a.cuDuId = b.cuDuId

/-! ## The comparator is a sign -/

/-- What `cmp_e2ap_plmn` orders by. -/
def E2apPlmn.key (m : E2apPlmn) : Nat ×ₗ Nat ×ₗ Nat :=
  toLex (m.mcc.toNat, toLex (m.mnc.toNat, m.mncDigitLen.toNat))

/-- What `cmp_global_e2_node_id` orders by, when the ids are there. -/
def GlobalE2NodeId.key (m : GlobalE2NodeId) : Nat ×ₗ (Nat ×ₗ Nat ×ₗ Nat) ×ₗ Nat ×ₗ Natᵒᵈ ×ₗ Nat :=
  toLex (m.type.toNat, toLex (m.plmn.key, toLex (m.nbId.nbId.toNat,
    toLex (OrderDual.toDual m.nbId.unused.toNat,
      if m.type.isSplit then (m.cuDuId.getD 0).toNat else 0))))

namespace GlobalE2NodeId

/-- A CU or a DU has the id of its own. -/
def HasId (m : GlobalE2NodeId) : Prop :=
  m.type.isSplit → m.cuDuId.isSome

end GlobalE2NodeId

theorem E2apPlmn.key_inj {m0 m1 : E2apPlmn} : m0.key = m1.key ↔ m0 = m1 := by
  cases m0
  cases m1
  simp [E2apPlmn.key, UInt16.toNat_inj, UInt8.toNat_inj]

theorem cmpE2apPlmn_eq (m0 m1 : E2apPlmn) : cmpE2apPlmn m0 m1 = signCmp m0.key m1.key := by
  unfold cmpE2apPlmn E2apPlmn.key
  rw [signCmp_lex, signCmp_lex]
  simp only [UInt16.lt_iff_toNat_lt, UInt8.lt_iff_toNat_lt, gt_iff_lt, signCmp]

theorem eqE2apPlmn_eq (m0 m1 : E2apPlmn) : eqE2apPlmn m0 m1 = decide (m0 = m1) := by
  cases m0
  cases m1
  simp only [eqE2apPlmn, E2apPlmn.mk.injEq]
  split_ifs <;> simp_all

theorem eqE2apGnbId_eq (m0 m1 : E2apGnbId) : eqE2apGnbId m0 m1 = decide (m0 = m1) := by
  cases m0
  cases m1
  simp only [eqE2apGnbId, E2apGnbId.mk.injEq]
  split_ifs <;> simp_all

theorem NgranNode.isSplit_eq (t : NgranNode) : (t.isCu || t.isCuUp || t.isDu) = t.isSplit := by
  cases t <;> rfl

theorem NgranNode.isPlainCu_or (t : NgranNode) :
    (t.isCuUp || t.isDu) = (t.isSplit && !t.isPlainCu) := by
  cases t <;> rfl

/-- The last field of the chain. -/
theorem cmpCuDuId_eq {m0 m1 : GlobalE2NodeId} (ht : m0.type = m1.type) (h0 : m0.HasId)
    (h1 : m1.HasId) : (if m0.type.isCu || m0.type.isCuUp || m0.type.isDu then
      match m0.cuDuId, m1.cuDuId with
      | some a, some b => some (if a < b then -1 else if a > b then (1 : Int) else 0)
      | _, _ => none
    else some 0) = some (signCmp (if m0.type.isSplit then (m0.cuDuId.getD 0).toNat else 0)
      (if m1.type.isSplit then (m1.cuDuId.getD 0).toNat else 0)) := by
  rw [NgranNode.isSplit_eq, ← ht]
  by_cases hs : m0.type.isSplit
  · obtain ⟨a, ha⟩ := Option.isSome_iff_exists.1 (h0 hs)
    obtain ⟨b, hb⟩ := Option.isSome_iff_exists.1 (h1 (ht ▸ hs))
    simp [hs, ha, hb, signCmp, UInt64.lt_iff_toNat_lt]
  · simp [hs, signCmp]

theorem cmpGlobalE2NodeId_eq {m0 m1 : GlobalE2NodeId} (h0 : m0.HasId) (h1 : m1.HasId) :
    cmpGlobalE2NodeId m0 m1 = some (signCmp m0.key m1.key) := by
  unfold cmpGlobalE2NodeId GlobalE2NodeId.key
  rw [signCmp_lex, signCmp_lex_of_ne, signCmp_lex, signCmp_lex_of_ne, signCmp_dual,
    ← cmpE2apPlmn_eq]
  rcases lt_trichotomy m0.type.toNat m1.type.toNat with ht | ht | ht
  · simp [ht]
  · rw [cmpCuDuId_eq (NgranNode.toNat_inj.1 ht) h0 h1]
    simp only [ht, lt_irrefl, gt_iff_lt, if_false, UInt32.lt_iff_toNat_lt]
    by_cases hp : cmpE2apPlmn m0.plmn m1.plmn = 0
    · rcases lt_trichotomy m0.nbId.nbId.toNat m1.nbId.nbId.toNat with hn | hn | hn
      · simp [hp, hn]
      · rcases lt_trichotomy m0.nbId.unused.toNat m1.nbId.unused.toNat with hu | hu | hu
        · simp [hp, hn, hu, signCmp, hu.not_gt]
        · simp [hp, hn, hu, signCmp]
        · simp [hp, hn, hu, signCmp, hu.not_gt]
      · simp [hp, hn, hn.not_gt]
    · simp [hp]
  · simp [ht, ht.not_gt]

/-! ## The two agree -/

/-- The equality leaves the id of a plain CU out. -/
theorem eqGlobalE2NodeId_eq {m0 m1 : GlobalE2NodeId} (h0 : m0.HasId) (h1 : m1.HasId) :
    eqGlobalE2NodeId m0 m1 = some (decide (m0.type = m1.type ∧ m0.plmn = m1.plmn ∧
      m0.nbId = m1.nbId ∧ (m0.type.isSplit && !m0.type.isPlainCu → m0.cuDuId = m1.cuDuId))) := by
  unfold eqGlobalE2NodeId
  rw [eqE2apPlmn_eq, eqE2apGnbId_eq, NgranNode.isPlainCu_or]
  obtain ⟨t, p, n, c⟩ := m0
  obtain ⟨t', p', n', c'⟩ := m1
  by_cases ht : t = t'
  · subst ht
    by_cases hs : (t.isSplit && !t.isPlainCu) = true
    · have hs' : t.isSplit := (Bool.and_eq_true_iff.1 hs).1
      obtain ⟨a, rfl⟩ := Option.isSome_iff_exists.1 (h0 hs')
      obtain ⟨b, rfl⟩ := Option.isSome_iff_exists.1 (h1 hs')
      by_cases hp : p = p' <;> by_cases hn : n = n' <;> simp [hp, hn, hs]
    · by_cases hp : p = p' <;> by_cases hn : n = n' <;> simp [hp, hn, hs]
  · simp [ht]

theorem GlobalE2NodeId.key_inj {m0 m1 : GlobalE2NodeId} : m0.key = m1.key ↔
    m0.type = m1.type ∧ m0.plmn = m1.plmn ∧ m0.nbId = m1.nbId ∧
      (m0.type.isSplit → (m0.cuDuId.getD 0) = m1.cuDuId.getD 0) := by
  have hnb : m0.nbId = m1.nbId ↔ m0.nbId.nbId = m1.nbId.nbId ∧ m0.nbId.unused = m1.nbId.unused := by
    cases m0.nbId
    cases m1.nbId
    simp
  unfold GlobalE2NodeId.key
  rw [hnb]
  simp only [EmbeddingLike.apply_eq_iff_eq, Prod.mk.injEq, NgranNode.toNat_inj,
    E2apPlmn.key_inj, UInt32.toNat_inj]
  by_cases ht : m0.type = m1.type
  · by_cases hs : m1.type.isSplit <;> simp [ht, hs, UInt64.toNat_inj, and_assoc]
  · simp [ht]

/-- The last field decides between ids that are alike else. -/
theorem cmpGlobalE2NodeId_alike {m0 m1 : GlobalE2NodeId} (ht : m0.type = m1.type)
    (hp : m0.plmn = m1.plmn) (hn : m0.nbId = m1.nbId) (hs : m0.type.isSplit) :
    cmpGlobalE2NodeId m0 m1 = match m0.cuDuId, m1.cuDuId with
      | some a, some b => some (if a < b then -1 else if a > b then 1 else 0)
      | _, _ => none := by
  rw [ht] at hs
  simp only [cmpGlobalE2NodeId, NgranNode.isSplit_eq, hs, ht, hp, hn, lt_irrefl,
    UInt32.lt_irrefl, gt_iff_lt, if_false, if_true, cmpE2apPlmn_eq, signCmp_eq_zero, ne_eq,
    not_true_eq_false]

theorem E2NodeIds.hasId {S : Set GlobalE2NodeId} (h : E2NodeIds S) {a : GlobalE2NodeId}
    (ha : a ∈ S) : a.HasId :=
  h.isSome a ha

/-- For ids that are there, the sign is 0 exactly when the equality holds. -/
theorem E2NodeIds.agree {S : Set GlobalE2NodeId} (h : E2NodeIds S) {a b : GlobalE2NodeId}
    (ha : a ∈ S) (hb : b ∈ S) :
    cmpGlobalE2NodeId a b = some 0 ↔ eqGlobalE2NodeId a b = some true := by
  rw [cmpGlobalE2NodeId_eq (h.hasId ha) (h.hasId hb), eqGlobalE2NodeId_eq (h.hasId ha) (h.hasId hb),
    Option.some.injEq, Option.some.injEq, signCmp_eq_zero, GlobalE2NodeId.key_inj, decide_eq_true_iff]
  refine and_congr_right fun ht => and_congr_right fun hp => and_congr_right fun hn => ?_
  by_cases hs : a.type.isSplit
  · obtain ⟨x, hx⟩ := Option.isSome_iff_exists.1 (h.hasId ha hs)
    obtain ⟨y, hy⟩ := Option.isSome_iff_exists.1 (h.hasId hb (ht ▸ hs))
    by_cases hc : a.type.isPlainCu
    · have hxy := h.unique a ha b hb hc ht hp hn
      simp [hxy]
    · simp [hs, hc, hx, hy]
  · simp [hs]

theorem E2NodeIds.order {S : Set GlobalE2NodeId} (h : E2NodeIds S) : E2NodeOrder S where
  defined a ha b hb := by
    have hag := h.agree ha hb
    rw [cmpGlobalE2NodeId_eq (h.hasId ha) (h.hasId hb),
      eqGlobalE2NodeId_eq (h.hasId ha) (h.hasId hb)] at *
    exact ⟨_, _, rfl, rfl, by simpa only [Option.some.injEq] using hag⟩
  antisymm a ha b hb rc hrc := by
    rw [cmpGlobalE2NodeId_eq (h.hasId ha) (h.hasId hb), Option.some.injEq] at hrc
    rw [cmpGlobalE2NodeId_eq (h.hasId hb) (h.hasId ha), signCmp_swap, hrc]
  trans a ha b hb c hc x y hx hy hx0 hy0 := by
    rw [cmpGlobalE2NodeId_eq (h.hasId ha) (h.hasId hb), Option.some.injEq] at hx
    rw [cmpGlobalE2NodeId_eq (h.hasId hb) (h.hasId hc), Option.some.injEq] at hy
    subst hx hy
    rw [signCmp_nonpos] at hx0 hy0
    refine ⟨_, cmpGlobalE2NodeId_eq (h.hasId ha) (h.hasId hc), signCmp_nonpos.2 (hx0.trans hy0),
      fun hz => ?_⟩
    have hac : a.key = c.key := signCmp_eq_zero.1 hz
    have hab : a.key = b.key := le_antisymm hx0 (hac ▸ hy0)
    exact ⟨signCmp_eq_zero.2 hab, signCmp_eq_zero.2 (hab.symm.trans hac)⟩
  select nodes hnodes id hid := by
    induction nodes with
    | nil => rfl
    | cons n nodes ih =>
      have hag := h.agree hid (hnodes n (List.mem_cons_self ..))
      have ih' := ih fun m hm => hnodes m (List.mem_cons_of_mem _ hm)
      simp only [List.find?_cons, hag, ih']

/-- The comparator orders the nodes, and agrees with the equality, exactly when every CU and DU has
an id of its own and no two plain CUs differ in nothing else. -/
theorem e2NodeOrder_iff (S : Set GlobalE2NodeId) : E2NodeOrder S ↔ E2NodeIds S := by
  refine ⟨fun h => ⟨fun a ha hs => ?_, fun a ha b hb hc ht hp hn => ?_⟩, E2NodeIds.order⟩
  · obtain ⟨rc, _, hrc, -⟩ := h.defined a ha a ha
    rw [cmpGlobalE2NodeId_alike rfl rfl rfl hs] at hrc
    cases hid : a.cuDuId with
    | some _ => rfl
    | none => simp [hid] at hrc
  · -- the equality says yes without a look at the ids
    have hsplit : a.type.isSplit := by
      simp only [NgranNode.isPlainCu, Bool.and_eq_true] at hc
      simp [NgranNode.isSplit, hc.1]
    obtain ⟨rc, eq, hrc, heq, hiff⟩ := h.defined a ha b hb
    have htrue : eq = true := by
      unfold eqGlobalE2NodeId at heq
      rw [eqE2apPlmn_eq, eqE2apGnbId_eq, NgranNode.isPlainCu_or, hc] at heq
      simpa [ht, hp, hn] using heq.symm
    rw [hiff.2 htrue, cmpGlobalE2NodeId_alike ht hp hn hsplit] at hrc
    split at hrc
    · next x y hx hy =>
      have hxy : signCmp x.toNat y.toNat = 0 := by
        simpa only [signCmp, UInt64.lt_iff_toNat_lt, gt_iff_lt, Option.some.injEq] using hrc
      rw [hx, hy, UInt64.toNat_inj.1 (signCmp_eq_zero.1 hxy)]
    · cases hrc

/-- Two CUs that were decoded, which have no id of their own. -/
theorem not_e2NodeOrder : ¬E2NodeOrder
    {{ type := .gNBCu, plmn := ⟨208, 95, 2⟩, nbId := ⟨3584, 0⟩, cuDuId := none }} := by
  intro h
  obtain ⟨rc, eq, hrc, -⟩ := h.defined _ rfl _ rfl
  cases hrc

end NrStack
