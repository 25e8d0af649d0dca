import NrStack.Coding.PolarLength
import NrStack.Coding.PolarSequence
import NrStack.Library.Tally

/-!
# Bit patterns of a polar code

`nr_polar_params` sets up the code of a message, with the pattern of the rate matching and that of
the information bits. The frozen bits of 38.212, 5.4.1.1 are collected with repetitions in an array
that has its count at the end, and so are those left over from the reliability sequence.
-/

namespace NrStack

/-! ## Rate matching -/

/-- `nr_polar_subblock_interleaver_pattern`. -/
def nrPolarSubblockInterleaverPattern : List ℕ :=
  [0, 1, 2, 4, 3, 5, 6, 7, 8, 16, 9, 17, 10, 18, 11, 19,
   12, 20, 13, 21, 14, 22, 15, 23, 24, 25, 26, 28, 27, 29, 30, 31]

/-- `nr_polar_rate_matching_pattern` : the pattern, and `J`. -/
def nrPolarRateMatchingPattern (P : List ℕ) (K N E : ℕ) : List ℕ × List ℕ :=
  let J := (List.range N).map fun m => P.getD (32 * m / N) 0 * (N / 32) + m % (N / 32)
  let d := List.range N
  let y := (List.range N).map fun m => d.getD (J.getD m 0) 0
  let rmp :=
    if E ≥ N then (List.range E).map fun k => y.getD (k % N) 0
    else if (K / E : ℚ) ≤ 7 / 16 then (List.range E).map fun k => y.getD (k + N - E) 0
    else (List.range E).map fun k => y.getD k 0
  (rmp, J)

/-! ## Information bits -/

/-- `Q_Ftmp_N`. -/
def qFtmpN (J : List ℤ) (K N E : ℕ) : Except ArrayFault (List ℤ) := do
  let qFtmp := List.replicate (N + 1) (-1)
  if E < N then
    if (K / E : ℚ) ≤ 7 / 16 then
      let qFtmp ← (List.range (N - E)).foldlM
        (fun a (n : ℕ) => do tallyPush N a (← fetch J n)) qFtmp
      let limit := if (E / N : ℚ) ≥ 3 / 4 then ⌈(3 * N - 2 * E : ℚ) / 4⌉₊
        else ⌈(9 * N - 4 * E : ℚ) / 16⌉₊
      (List.range limit).foldlM (fun a (n : ℕ) => tallyPush N a n) qFtmp
    else
      (List.range' E (N - E)).foldlM (fun a (n : ℕ) => do tallyPush N a (← fetch J n)) qFtmp
  else return qFtmp

/-- `Q_Itmp_N`. -/
def qItmpN (qFtmp q0 : List ℤ) (N : ℕ) : Except ArrayFault (List ℤ) :=
  (List.range N).foldlM (fun a (n : ℕ) => do
    let v ← fetch q0 n
    if ← tallySearch N qFtmp v then return a else tallyPush N a v) (List.replicate (N + 1) (-1))

/-- `Q_I_N`, the last `k` of `Q_Itmp_N`. -/
def qIN (qItmp : List ℤ) (N k : ℕ) : Except ArrayFault (List ℤ) :=
  (List.range k).mapM fun n : ℕ => do
    let last ← fetch qItmp N
    fetch qItmp (last + n - (k - 1))

/-- `Q_PC_N`. -/
def qPCN (qI : List ℤ) (nPc nPcWm : ℕ) : Except ArrayFault (List ℤ) :=
  if nPc > 0 then
    if nPcWm = 0 then (List.range (nPc - nPcWm)).mapM fun n : ℕ => fetch qI n
    else .error .assertion
  else .ok []

/-- What `nr_polar_info_bit_pattern` writes. -/
structure PolarPatterns where
  ibp : List UInt8
  pcbp : List UInt8
  qI : List ℤ
  qF : List ℤ
  qPC : List ℤ
deriving DecidableEq, Repr

/-- `nr_polar_info_bit_pattern`. -/
def nrPolarInfoBitPattern (qF J q0 : List ℤ) (K N E nPc nPcWm : ℕ) :
    Except ArrayFault PolarPatterns := do
  let qFtmp ← qFtmpN J K N E
  let qItmp ← qItmpN qFtmp q0 N
  let qI ← qIN qItmp N (K + nPc)
  let qPC ← qPCN qI nPc nPcWm
  let qF ← (List.range N).foldlM (fun a (n : ℕ) => do
    let toCmp ← fetch q0 n
    if toCmp ∈ qI then return a else tallyPush N a toCmp) qF
  let ibp := (List.range N).map fun n : ℕ => if (n : ℤ) ∈ qI then 1 else 0
  let pcbp := (List.range N).map fun n : ℕ => if (n : ℤ) ∈ qPC then 1 else 0
  return ⟨ibp, pcbp, qI, qF, qPC⟩

/-! ## The code of a message -/

/-- The `messageType` of `nr_polar_params`. -/
inductive PolarMessageType
  | pbch
  | dci
  | uciPucch
  | psbch
deriving DecidableEq, Repr

/-- What the patterns depend on, of `t_nrPolar_params`. -/
structure NrPolarParams where
  nMax : UInt8
  nPc : UInt8
  nPcWm : UInt8
  payloadBits : UInt16
  encoderLength : UInt16
  crcParityBits : UInt8
deriving DecidableEq, Repr

/-- The first part of `nr_polar_params`, up to the number of bits to encode. -/
def nrPolarParams (messageType : PolarMessageType) (messageLength : UInt16)
    (aggregationLevel : UInt8) : Except ArrayFault NrPolarParams :=
  match messageType with
  | .pbch => .ok ⟨9, 0, 0, 32, 864, 24⟩
  | .dci => .ok ⟨9, 0, 0, messageLength, aggregationLevel.toUInt16 * 108, 24⟩
  | .uciPucch =>
    if ¬aggregationLevel > 2 then .error .assertion
    else if ¬messageLength > 11 then .error .assertion
    else
      let L : UInt8 := if messageLength ≥ 12 ∧ messageLength ≤ 19 then 6 else 11
      let encoderLength := aggregationLevel.toUInt16 * 16
      if (messageLength ≥ 360 ∧ encoderLength ≥ 1088) ∨ messageLength ≥ 1013 then .error .assertion
      else
        let Kr : ℤ := messageLength.toNat + L.toNat
        if Kr ≥ 18 ∧ Kr ≤ 25 then
          let nPcWm := if encoderLength.toNat - Kr + 3 > 192 then 1 else 0
          .ok ⟨10, 3, nPcWm, messageLength, encoderLength, L⟩
        else if Kr > 30 then .ok ⟨10, 0, 0, messageLength, encoderLength, L⟩
        else .error .assertion
  | .psbch => .ok ⟨9, 0, 0, 32, 1782 + 2, 24⟩

namespace NrPolarParams

/-- The number of bits to encode. -/
def K (p : NrPolarParams) : UInt16 :=
  p.payloadBits + p.crcParityBits.toUInt16

/-- The length of the code. -/
def N (p : NrPolarParams) : ℕ :=
  (nrPolarOutputLength p.K p.encoderLength p.nMax).toNat

/-- The rest of `nr_polar_params` : the patterns. -/
def patterns (p : NrPolarParams) : Except ArrayFault PolarPatterns :=
  let q0 := nrPolarSequencePattern (Nat.log 2 p.N)
  let (_, J) := nrPolarRateMatchingPattern nrPolarSubblockInterleaverPattern p.K.toNat p.N
    p.encoderLength.toNat
  nrPolarInfoBitPattern (List.replicate (p.N + 1) (-1)) (J.map Nat.cast) (q0.map Nat.cast)
    p.K.toNat p.N p.encoderLength.toNat p.nPc.toNat p.nPcWm.toNat

end NrPolarParams

end NrStack
