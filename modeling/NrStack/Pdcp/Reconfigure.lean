import NrStack.Pdcp.Reordering
import NrStack.Rlc.Reconfigure

/-!
# Reconfiguration of a PDCP entity

`nr_pdcp_reconfigure_srb` and `nr_pdcp_reconfigure_drb`, with the tables of `asn1_utils.c`.
As in RLC, the largest SN and the window are derived from the SN size by the constructor
alone, and `nr_pdcp_reconfigure_drb` writes the SN size.
-/

namespace NrStack

/-! ## The configuration -/

/-- `decode_t_reordering`. -/
def decodeTReordering : Int → Option Int :=
  decodeEnumerated [0, 1, 2, 4, 5, 8, 10, 15, 20, 30, 40, 50, 60, 80, 100, 120, 140, 160, 180, 200,
    220, 240, 260, 280, 300, 500, 750, 1000, 1250, 1500, 1750, 2000, 2250, 2500, 2750, 3000]

/-- `decode_sn_size_ul`. -/
def decodeSnSizeUl : Int → Option Nat :=
  decodeEnumerated [shortSnSize, longSnSize]

/-- `decode_sn_size_dl`. -/
def decodeSnSizeDl : Int → Option Nat :=
  decodeEnumerated [shortSnSize, longSnSize]

/-- `decode_discard_timer`. -/
def decodeDiscardTimer : Int → Option Int :=
  decodeEnumerated [10, 20, 30, 40, 50, 60, 75, 100, 150, 200, 250, 300, 500, 750, 1500, -1]

/-- `NR_PDCP_Config__drb`. -/
structure NrPdcpConfigDrb where
  discardTimer : Option Int
  pdcpSnSizeUl : Option Int
  pdcpSnSizeDl : Option Int
deriving DecidableEq, Repr

/-- `NR_PDCP_Config_t`. -/
structure NrPdcpConfig where
  tReordering : Option Int
  drb : Option NrPdcpConfigDrb
deriving DecidableEq, Repr

/-- The optional value `v`, decoded; `none` is `exit`. -/
def decodeOptional {α : Type*} (decode : Int → Option α) : Option Int → Option (Option α)
  | some v => (decode v).map some
  | none => some none

theorem decodeOptional_eq {α : Type*} {decode : Int → Option α} {v : Option Int} {n : Option α}
    (h : decodeOptional decode v = some n) : n = v.bind decode := by
  cases v with
  | none =>
    cases h
    rfl
  | some v =>
    obtain ⟨m, hm, rfl⟩ := Option.map_eq_some_iff.1 h
    exact hm.symm

namespace NrPdcpEntity

variable (e : NrPdcpEntity)

/-- `nr_pdcp_reconfigure_srb` of an entity that exists; `none` is `exit`. -/
def reconfigureSrb (tReordering : Int) : Option NrPdcpEntity := do
  let tReordering ← decodeTReordering tReordering
  some { e with tReordering := tReordering }

/-- `nr_pdcp_reconfigure_drb` of an entity that exists; `none` is a failed assertion or
`exit`. -/
def reconfigureDrb : Option NrPdcpConfig → Option NrPdcpEntity
  | none => some e
  | some c => do
    let tReordering ← decodeOptional decodeTReordering c.tReordering
    let e := { e with tReordering := tReordering.getD (-1) }
    match c.drb with
    | none => some e
    | some drb => do
      let _ ← decodeOptional decodeDiscardTimer drb.discardTimer
      let ul ← decodeOptional decodeSnSizeUl drb.pdcpSnSizeUl
      let e := { e with snSize := ul.getD e.snSize }
      let dl ← decodeOptional decodeSnSizeDl drb.pdcpSnSizeDl
      match dl with
      | none => some e
      | some size => if ul.isNone ∨ size = e.snSize then some { e with snSize := size } else none

end NrPdcpEntity

/-- What a PDCP entity is reconfigured with. -/
inductive NrPdcpReconfiguration
  | srb (tReordering : Int)
  | drb (c : Option NrPdcpConfig)
deriving DecidableEq, Repr

/-- `nr_pdcp_reconfigure_srb` or `nr_pdcp_reconfigure_drb`. -/
def nrPdcpReconfigure (e : NrPdcpEntity) : NrPdcpReconfiguration → Option NrPdcpEntity
  | .srb tReordering => e.reconfigureSrb tReordering
  | .drb c => e.reconfigureDrb c

/-! ## The SN space -/

namespace NrPdcpReconfiguration

/-- The SN size that a reconfiguration gives. -/
def givenSnSize : NrPdcpReconfiguration → Option Nat
  | .drb (some ⟨_, some ⟨_, _, some dl⟩⟩) => decodeSnSizeDl dl
  | .drb (some ⟨_, some ⟨_, ul, none⟩⟩) => ul.bind decodeSnSizeUl
  | _ => none

end NrPdcpReconfiguration

namespace NrPdcpEntity

variable {e e' : NrPdcpEntity} {c : NrPdcpReconfiguration}

/-- A reconfiguration that gives an SN size gives the current one. -/
def KeepsSnSize (e : NrPdcpEntity) (c : NrPdcpReconfiguration) : Prop :=
  ∀ n, c.givenSnSize = some n → n = e.snSize

/-- A reconfiguration writes the SN size alone. -/
theorem nrPdcpReconfigure_snSize (hs : nrPdcpReconfigure e c = some e') :
    e'.snSize = c.givenSnSize.getD e.snSize ∧ e'.snMax = e.snMax ∧
      e'.windowSize = e.windowSize := by
  cases c with
  | srb tReordering =>
    obtain ⟨_, -, hs⟩ := Option.bind_eq_some_iff.1 hs
    cases hs
    exact ⟨rfl, rfl, rfl⟩
  | drb c =>
    rcases c with _ | ⟨t, drb⟩
    · cases hs
      exact ⟨rfl, rfl, rfl⟩
    obtain ⟨_, -, hs⟩ := Option.bind_eq_some_iff.1 hs
    rcases drb with _ | ⟨discardTimer, ul, dl⟩
    · cases hs
      exact ⟨rfl, rfl, rfl⟩
    obtain ⟨_, -, hs⟩ := Option.bind_eq_some_iff.1 hs
    obtain ⟨ulSize, hul, hs⟩ := Option.bind_eq_some_iff.1 hs
    obtain ⟨dlSize, hdl, hs⟩ := Option.bind_eq_some_iff.1 hs
    rcases dl with _ | v
    · obtain rfl := decodeOptional_eq hul
      cases hdl
      cases hs
      exact ⟨rfl, rfl, rfl⟩
    · obtain ⟨size, hsize, rfl⟩ := Option.map_eq_some_iff.1 hdl
      have hgiven : (NrPdcpReconfiguration.drb
          (some ⟨t, some ⟨discardTimer, ul, some v⟩⟩)).givenSnSize = some size := hsize
      rw [hgiven]
      dsimp only at hs
      split_ifs at hs
      cases hs
      exact ⟨rfl, rfl, rfl⟩

/-- What a reconfiguration does to the SN space. -/
theorem snCoherent_reconfigure_iff (h : e.SnCoherent) (hs : nrPdcpReconfigure e c = some e') :
    e'.SnCoherent ↔ e.KeepsSnSize c := by
  obtain ⟨hsize, hmax, hwindow⟩ := nrPdcpReconfigure_snSize hs
  constructor
  · intro h' n hn
    rw [hn, Option.getD_some] at hsize
    have hpow : 2 ^ n - 1 = 2 ^ e.snSize - 1 := by
      rw [← h.snMax_eq, ← hmax, h'.snMax_eq, hsize]
    have hn := Nat.two_pow_pos n
    have he := Nat.two_pow_pos e.snSize
    have hpow' : 2 ^ n = 2 ^ e.snSize := by omega
    exact Nat.pow_right_injective (le_refl 2) hpow'
  · intro hkeep
    have hsame : e'.snSize = e.snSize := by
      rw [hsize]
      cases hc : c.givenSnSize with
      | none => rfl
      | some n => exact hkeep n hc
    exact h.congr hsame hmax hwindow

end NrPdcpEntity

/-- A sequence of reconfigurations leaves the SN space that of the SN length throughout, in
RLC and in PDCP, exactly when none of them changes the SN length. -/
theorem snCoherent_iff (rlc : RlcEntityConfig) (rlcRun : List (Option NrRlcConfig))
    {c : PdcpConfig} {e : NrPdcpEntity} (hnew : newNrPdcpEntity c = some e)
    (pdcpRun : List NrPdcpReconfiguration) :
    (AllStates nrRlcReconfigureEntity NrRlcEntity.SnCoherent (newNrRlcEntity rlc) rlcRun ↔
      AllSteps nrRlcReconfigureEntity NrRlcEntity.KeepsSnLength (newNrRlcEntity rlc) rlcRun) ∧
    (AllStates nrPdcpReconfigure NrPdcpEntity.SnCoherent e pdcpRun ↔
      AllSteps nrPdcpReconfigure NrPdcpEntity.KeepsSnSize e pdcpRun) := by
  refine ⟨NrRlcEntity.rlcSnCoherent_iff rlc rlcRun, ?_⟩
  exact allStates_iff_allSteps (fun _ h => h)
    (fun _ _ _ h hs hok => (NrPdcpEntity.snCoherent_reconfigure_iff h hs).2 hok)
    (fun _ _ _ h hs hok h' => hok ((NrPdcpEntity.snCoherent_reconfigure_iff h hs).1 h')) pdcpRun _
    (newNrPdcpEntity_buffer hnew).1.coherent

/-- A reconfiguration of a DRB to the SN size of `plainDrb`. -/
def shortSnReconfiguration : NrPdcpReconfiguration :=
  .drb (some ⟨none, some ⟨none, some 0, some 0⟩⟩)

theorem snCoherent_iff_plainDrb :
    (AllStates nrRlcReconfigureEntity NrRlcEntity.SnCoherent
        (newNrRlcEntity (.um ⟨100, 100, 35, 12, .inr rfl⟩)) [none] ↔
      AllSteps nrRlcReconfigureEntity NrRlcEntity.KeepsSnLength
        (newNrRlcEntity (.um ⟨100, 100, 35, 12, .inr rfl⟩)) [none]) ∧
    (AllStates nrPdcpReconfigure NrPdcpEntity.SnCoherent plainDrbEntity [shortSnReconfiguration] ↔
      AllSteps nrPdcpReconfigure NrPdcpEntity.KeepsSnSize plainDrbEntity
        [shortSnReconfiguration]) :=
  snCoherent_iff (.um ⟨100, 100, 35, 12, .inr rfl⟩) [none] newNrPdcpEntity_plainDrb
    [shortSnReconfiguration]

/-- An AM bearer and a PDCP entity of 12 bit SNs are reconfigured to 18 bits. -/
theorem snCoherent_fails :
    ¬AllStates nrRlcReconfigureEntity NrRlcEntity.SnCoherent
      (newNrRlcEntity (.am ⟨100, 100, 45, 35, 0, -1, -1, 8, 12, .inl rfl⟩))
      [some (.am ⟨some 1, 7, 0⟩ ⟨some 1, 8, 23, 43, 5⟩)] ∧
    ¬AllStates nrPdcpReconfigure NrPdcpEntity.SnCoherent plainDrbEntity
      [.drb (some ⟨none, some ⟨none, some 1, some 1⟩⟩)] := by
  constructor
  · intro h
    have hmodulus := (h.2 _ rfl).1
    exact absurd hmodulus (by decide)
  · intro h
    have hmax := (h.2 _ rfl).snMax_eq
    exact absurd hmax (by decide)

end NrStack
