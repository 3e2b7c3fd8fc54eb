import SingBoxAuth.TLSFragmentIndex
import Mathlib.Algebra.Order.Ring.Int

/-! The first write of a connection with TLS fragmentation: what is written is split inside the labels
of the server name, in packets, in records or in both. -/
namespace SingBoxAuth.TLSFragment
open Outcomes Outcome

structure Conn where
  splitPacket : Bool
  splitRecord : Bool
  tcpConn : Bool
  firstPacketWritten : Bool

/-- The list of public suffixes, the random numbers by call and bound, and which of the operations
on the connection succeed. -/
structure World where
  publicSuffix : Bytes → Bytes
  intn : ℕ → ℕ → ℕ
  accepts : ℕ → Bool

structure Reply where
  n : ℕ
  written : List Bytes
  deriving DecidableEq

structure Progress where
  buffer : Bytes
  written : List Bytes
  operations : ℕ

section model

variable (conn : Conn) (world : World)

/-- `rand.Intn` panics without a positive bound. -/
def randIntn (call n : ℕ) : Outcome WriteError ℕ :=
  if n = 0 then .outOfRange else .ok (world.intn call n % n)

def operate (p : Progress) : Outcome WriteError Progress :=
  if world.accepts p.operations then .ok { p with operations := p.operations + 1 }
  else .error .refused

/-- A write, on the connection or, with the wait for its acknowledgement, on the TCP connection. -/
def send (payload : Bytes) (p : Progress) : Outcome WriteError Progress := do
  let p ← operate world p
  .ok { p with written := p.written ++ [payload] }

def labelsOf (serverName : Bytes) : Outcome WriteError (List Bytes) :=
  let splits := serverName.splitOn 46
  if world.publicSuffix serverName ≠ [] then
    slice splits 0 (splits.length - serverName.count 46)
  else .ok splits

/-- A first label of three dots is left out. -/
def skipDots (currentIndex : ℕ) : List Bytes → ℕ × List Bytes
  | first :: second :: splits =>
    if first = [46,46,46] then (currentIndex + first.length + 1,second :: splits)
    else (currentIndex,first :: second :: splits)
  | splits => (currentIndex,splits)

def splitIndexes : ℕ → ℕ → List Bytes → Outcome WriteError (List ℕ)
  | _, _, [] => .ok []
  | call, currentIndex, split :: splits => do
    let splitAt ← randIntn world call split.length
    let rest ← splitIndexes (call + 1)
      (currentIndex + split.length + if splits = [] then 0 else 1) splits
    .ok ((currentIndex + splitAt) :: rest)

/-- The type and version of `b`, the length as a uint16, and the payload. -/
def record (b payload : Bytes) : Bytes :=
  b.take 3 ++ [UInt8.ofNat (payload.length / 256),UInt8.ofNat payload.length] ++ payload

/-- One round of the loop, after its payload was cut. -/
def emit (b payload : Bytes) (p : Progress) : Outcome WriteError Progress :=
  if conn.splitRecord then do
    let _ ← slice b 0 3
    let buffer := (if conn.splitPacket then [] else p.buffer) ++ record b payload
    if conn.splitPacket then send world buffer { p with buffer := buffer }
    else .ok { p with buffer := buffer }
  else if conn.splitPacket then send world payload p
  else .ok p

/-- The first payload is cut behind the header of the record. -/
def dropHeader (payload : Bytes) : Outcome WriteError Bytes :=
  if conn.splitRecord then sliceFrom payload 5 else .ok payload

def emitAll (b : Bytes) : Option ℕ → List ℕ → Progress → Outcome WriteError Progress
  | none, [], _ => .outOfRange
  | none, split :: splits, p => do
    let payload ← slice b 0 split
    let payload ← dropHeader conn payload
    let p ← emit conn world b payload p
    emitAll b (some split) splits p
  | some previous, [], p => do
    let payload ← sliceFrom b previous
    emit conn world b payload p
  | some previous, split :: splits, p => do
    let payload ← slice b previous split
    let p ← emit conn world b payload p
    emitAll b (some split) splits p

def when (condition : Bool) (f : Progress → Outcome WriteError Progress) (p : Progress) :
    Outcome WriteError Progress :=
  if condition then f p else .ok p

def writeSplit (b : Bytes) (serverName : MyServerName) : Outcome WriteError Reply := do
  let p ← when (conn.splitPacket && conn.tcpConn) (operate world) ⟨[],[],0⟩
  let splits ← labelsOf world serverName.serverName
  let (currentIndex,splits) := skipDots serverName.index splits
  let splitIndexes ← splitIndexes world 0 currentIndex splits
  let p ← emitAll conn world b none splitIndexes p
  let p ← when (conn.splitRecord && !conn.splitPacket) (fun p => send world p.buffer p) p
  let p ← when conn.tcpConn (operate world) p
  .ok ⟨b.length,p.written⟩

def writePlain (b : Bytes) : Outcome WriteError Reply := do
  let p ← send world b ⟨[],[],0⟩
  .ok ⟨b.length,p.written⟩

def write (fuel : ℕ) (b : Bytes) : Outcome WriteError Reply :=
  if conn.firstPacketWritten then writePlain world b
  else do
    match ← indexTLSServerName fuel b with
    | some serverName => writeSplit conn world b serverName
    | none => writePlain world b

end model

section labels

lemma splitOn_cons (x : UInt8) (name : Bytes) :
    (x :: name).splitOn 46 = if x = 46 then [] :: name.splitOn 46
      else (name.splitOn 46).modifyHead (List.cons x) := by
  rw [List.splitOn,List.splitOnP_cons_eq_if_modifyHead]
  exact if_congr beq_iff_eq rfl rfl

lemma splitOn_spec (name : Bytes) : (name.splitOn 46).length = name.count 46 + 1 ∧
    ((name.splitOn 46).map List.length).sum + name.count 46 = name.length ∧
    ∀ label ∈ name.splitOn 46, 46 ∉ label := by
  induction name with
  | nil => simp
  | cons x name ih =>
    obtain ⟨label,labels,hl⟩ := List.exists_cons_of_ne_nil (List.splitOn_ne_nil (46 : UInt8) name)
    rw [hl] at ih
    rw [splitOn_cons,hl]
    simp only [List.length_cons,List.map_cons,List.sum_cons,List.forall_mem_cons] at ih ⊢
    obtain ⟨hn,hsum,hlabel,hlabels⟩ := ih
    by_cases hx : x = 46
    · subst hx
      rw [if_pos rfl,List.count_cons_self]
      simp only [List.length_cons,List.map_cons,List.sum_cons,List.forall_mem_cons,List.length_nil]
      exact ⟨by omega,by omega,by simp,hlabel,hlabels⟩
    · rw [if_neg hx,List.count_cons_of_ne hx]
      simp only [List.modifyHead_cons,List.length_cons,List.map_cons,List.sum_cons,
        List.forall_mem_cons]
      refine ⟨by omega,by omega,?_,hlabels⟩
      exact fun hm => (List.mem_cons.mp hm).elim (fun he => hx he.symm) hlabel

/-- The labels that are split: the first one, or without a public suffix all. -/
def used (publicSuffix : Bytes → Bytes) (name : Bytes) : List Bytes :=
  if publicSuffix name ≠ [] then (name.splitOn 46).take 1 else name.splitOn 46

def joined (labels : List Bytes) : ℕ := (labels.map List.length).sum + (labels.length - 1)

variable {world : World} {name : Bytes} {labels : List Bytes}

lemma labelsOf_eq (world : World) (name : Bytes) :
    labelsOf world name = .ok (used world.publicSuffix name) := by
  obtain ⟨hl,-⟩ := splitOn_spec name
  unfold labelsOf used
  dsimp only
  split
  · rw [slice_of_le (Nat.zero_le _) (by omega),hl]
    simp
  · rfl

lemma used_ne_nil (publicSuffix : Bytes → Bytes) (name : Bytes) : used publicSuffix name ≠ [] := by
  have hn := List.splitOn_ne_nil (46 : UInt8) name
  unfold used
  split
  · simp [hn]
  · exact hn

lemma skipDots_used (publicSuffix : Bytes → Bytes) (name : Bytes) (index : ℕ) :
    skipDots index (used publicSuffix name) = (index,used publicSuffix name) := by
  have hd : ∀ label ∈ used publicSuffix name,46 ∉ label := by
    intro label hm
    refine (splitOn_spec name).2.2 label ?_
    unfold used at hm
    split at hm
    · exact List.mem_of_mem_take hm
    · exact hm
  cases hu : used publicSuffix name with
  | nil => rfl
  | cons first rest =>
    cases rest with
    | nil => rfl
    | cons second rest =>
      refine if_neg fun he => ?_
      refine hd first (by simp [hu]) ?_
      simp [he]

lemma joined_used_le (publicSuffix : Bytes → Bytes) (name : Bytes) :
    joined (used publicSuffix name) ≤ name.length := by
  obtain ⟨hl,hsum,-⟩ := splitOn_spec name
  unfold used joined
  split
  · cases hs : name.splitOn 46 with
    | nil => simp
    | cons first rest =>
      rw [hs,List.map_cons,List.sum_cons] at hsum
      simp
      omega
  · omega

lemma joined_cons (label : Bytes) (labels : List Bytes) :
    joined (label :: labels) = label.length + (if labels = [] then 0 else 1) + joined labels := by
  cases labels with
  | nil => simp [joined]
  | cons second labels =>
    simp [joined]
    omega

lemma splitIndexes_empty (h : [] ∈ labels) (call currentIndex : ℕ) :
    splitIndexes world call currentIndex labels = .outOfRange := by
  induction labels generalizing call currentIndex with
  | nil => cases h
  | cons label labels ih =>
    rw [splitIndexes,randIntn]
    split
    · rfl
    · rename_i hn
      rw [ok_bind,ih ((List.mem_cons.mp h).resolve_left fun he => hn (by simp [← he]))]
      rfl

lemma splitIndexes_spec (world : World) (h : [] ∉ labels) (call currentIndex : ℕ) :
    ∃ splits,splitIndexes world call currentIndex labels = .ok splits ∧
      splits.length = labels.length ∧ splits.Pairwise (· ≤ ·) ∧
      ∀ s ∈ splits,currentIndex ≤ s ∧ s < currentIndex + joined labels := by
  induction labels generalizing call currentIndex with
  | nil => exact ⟨[],rfl,rfl,.nil,by simp⟩
  | cons label labels ih =>
    rw [List.mem_cons,not_or] at h
    have hp : 0 < label.length := List.length_pos_iff.mpr (Ne.symm h.1)
    obtain ⟨splits,hs,hl,ho,hin⟩ := ih h.2 (call + 1)
      (currentIndex + label.length + if labels = [] then 0 else 1)
    have hlt := Nat.mod_lt (world.intn call label.length) hp
    refine ⟨(currentIndex + world.intn call label.length % label.length) :: splits,?_,?_,?_,?_⟩
    · rw [splitIndexes,randIntn,if_neg (by omega),ok_bind,hs,ok_bind]
    · rw [List.length_cons,hl,List.length_cons]
    · refine .cons (fun s hs => ?_) ho
      have hb := hin s hs
      omega
    · rw [joined_cons,List.forall_mem_cons]
      refine ⟨by omega,fun s hs => ?_⟩
      have hb := hin s hs
      omega

lemma splitIndexes_last (h : [] ∉ labels) (hn : labels ≠ []) (hi : ∀ call n,world.intn call n = n - 1)
    (call currentIndex : ℕ) : ∃ splits,splitIndexes world call currentIndex labels = .ok splits ∧
      currentIndex + joined labels - 1 ∈ splits := by
  induction labels generalizing call currentIndex with
  | nil => exact absurd rfl hn
  | cons label labels ih =>
    rw [List.mem_cons,not_or] at h
    have hp : 0 < label.length := List.length_pos_iff.mpr (Ne.symm h.1)
    have hm : world.intn call label.length % label.length = label.length - 1 := by
      rw [hi]
      exact Nat.mod_eq_of_lt (by omega)
    rw [joined_cons]
    by_cases hl : labels = []
    · subst hl
      refine ⟨[currentIndex + (label.length - 1)],?_,?_⟩
      · rw [splitIndexes,randIntn,if_neg (by omega),ok_bind,hm]
        rfl
      · simp [joined]
        omega
    · obtain ⟨splits,hs,hin⟩ := ih h.2 hl (call + 1)
        (currentIndex + label.length + if labels = [] then 0 else 1)
      refine ⟨(currentIndex + (label.length - 1)) :: splits,?_,List.mem_cons_of_mem _ ?_⟩
      · rw [splitIndexes,randIntn,if_neg (by omega),ok_bind,hs,ok_bind,hm]
      · rwa [show currentIndex + (label.length + (if labels = [] then 0 else 1) + joined labels) - 1 =
          currentIndex + label.length + (if labels = [] then 0 else 1) + joined labels - 1 by omega]

end labels

section emission

def pieces (b : Bytes) : ℕ → List ℕ → List Bytes
  | previous, [] => [b.drop previous]
  | previous, split :: splits => (b.drop previous).take (split - previous) :: pieces b split splits

def emitEach (conn : Conn) (world : World) (b : Bytes) :
    List Bytes → Progress → Outcome WriteError Progress
  | [], p => .ok p
  | payload :: payloads, p => emit conn world b payload p >>= emitEach conn world b payloads

variable {conn : Conn} {world : World} {b : Bytes}

lemma emitAll_some {previous : ℕ} {splits : List ℕ} (ho : (previous :: splits).Pairwise (· ≤ ·))
    (hl : ∀ s ∈ previous :: splits,s ≤ b.length) (p : Progress) :
    emitAll conn world b (some previous) splits p =
      emitEach conn world b (pieces b previous splits) p := by
  induction splits generalizing previous p with
  | nil =>
    rw [emitAll,sliceFrom_of_le (hl previous List.mem_cons_self),ok_bind,pieces,emitEach]
    cases emit conn world b (b.drop previous) p <;> rfl
  | cons split splits ih =>
    rw [List.forall_mem_cons] at hl
    rw [List.pairwise_cons] at ho
    rw [emitAll,slice_of_le (ho.1 split List.mem_cons_self) (hl.2 split List.mem_cons_self),ok_bind,
      pieces,emitEach]
    exact congrArg _ (funext fun p => ih ho.2 hl.2 p)

lemma emitAll_none {splits : List ℕ} (hn : splits ≠ []) (ho : splits.Pairwise (· ≤ ·))
    (hl : ∀ s ∈ splits,5 ≤ s ∧ s ≤ b.length) (p : Progress) :
    emitAll conn world b none splits p =
      emitEach conn world b (pieces b (if conn.splitRecord then 5 else 0) splits) p := by
  obtain ⟨split,splits,rfl⟩ := List.exists_cons_of_ne_nil hn
  have hs := hl split List.mem_cons_self
  have hp : dropHeader conn ((b.drop 0).take (split - 0)) =
      .ok ((b.drop (if conn.splitRecord then 5 else 0)).take
        (split - if conn.splitRecord then 5 else 0)) := by
    unfold dropHeader
    split
    · rw [sliceFrom_of_le (by rw [List.length_take,List.length_drop]; omega),List.drop_take,
        List.drop_drop]
      rfl
    · rfl
  rw [emitAll,slice_of_le (Nat.zero_le _) hs.2,ok_bind,hp,ok_bind,pieces,emitEach]
  exact congrArg _ (funext fun p => emitAll_some ho (fun s hm => (hl s hm).2) p)

lemma operate_safe (p : Progress) : (operate world p).Safe := by
  unfold operate
  split <;> trivial

lemma send_safe (payload : Bytes) (p : Progress) : (send world payload p).Safe :=
  (operate_safe p).bind fun _ _ => trivial

lemma emit_safe (hb : 3 ≤ b.length) (payload : Bytes) (p : Progress) :
    (emit conn world b payload p).Safe := by
  unfold emit
  split
  · rw [slice_of_le (Nat.zero_le _) hb,ok_bind]
    dsimp only
    split
    · exact send_safe _ _
    · trivial
  · split
    · exact send_safe _ _
    · trivial

lemma emitEach_safe (hb : 3 ≤ b.length) (payloads : List Bytes) (p : Progress) :
    (emitEach conn world b payloads p).Safe := by
  induction payloads generalizing p with
  | nil => trivial
  | cons payload payloads ih => exact (emit_safe hb payload p).bind fun p _ => ih p

lemma when_safe {f : Progress → Outcome WriteError Progress} (hf : ∀ p,(f p).Safe)
    (condition : Bool) (p : Progress) : (when condition f p).Safe := by
  unfold when
  split
  · exact hf p
  · trivial

section accepting

variable (ha : ∀ i, world.accepts i = true)

include ha

lemma operate_ok (p : Progress) : operate world p = .ok { p with operations := p.operations + 1 } :=
  if_pos (ha _)

lemma emit_ok (hb : 3 ≤ b.length) (payload : Bytes) (p : Progress) :
    ∃ p',emit conn world b payload p = .ok p' ∧ p'.written = p.written ++ (if conn.splitPacket then
        [if conn.splitRecord then record b payload else payload] else []) ∧
      (conn.splitRecord = true → conn.splitPacket = false →
        p'.buffer = p.buffer ++ record b payload) := by
  unfold emit send
  rw [slice_of_le (Nat.zero_le _) hb,ok_bind]
  cases conn.splitRecord <;> cases conn.splitPacket <;>
    simp [operate_ok ha]

lemma emitEach_ok (hb : 3 ≤ b.length) (payloads : List Bytes) (p : Progress) :
    ∃ p',emitEach conn world b payloads p = .ok p' ∧
      p'.written = p.written ++ (if conn.splitPacket then
        payloads.map (fun payload => if conn.splitRecord then record b payload else payload)
        else []) ∧
      (conn.splitRecord = true → conn.splitPacket = false →
        p'.buffer = p.buffer ++ (payloads.map (record b)).flatten) := by
  induction payloads generalizing p with
  | nil => exact ⟨p,rfl,by simp,by simp⟩
  | cons payload payloads ih =>
    obtain ⟨p₁,h₁,hw₁,hb₁⟩ := emit_ok ha hb payload p
    obtain ⟨p₂,h₂,hw₂,hb₂⟩ := ih p₁
    refine ⟨p₂,?_,?_,fun hr hp => ?_⟩
    · rw [emitEach,h₁,ok_bind,h₂]
    · rw [hw₂,hw₁]
      cases conn.splitPacket <;> simp
    · rw [hb₂ hr hp,hb₁ hr hp,List.map_cons,List.flatten_cons,List.append_assoc]

lemma emitAll_panics (hb : 3 ≤ b.length) {splits : List ℕ} (hs : ∃ s ∈ splits,b.length < s)
    (previous : Option ℕ) (p : Progress) :
    emitAll conn world b previous splits p = .outOfRange := by
  induction splits generalizing previous p with
  | nil => simp at hs
  | cons split splits ih =>
    have hnext : ∀ payload,split ≤ b.length → (emit conn world b payload p >>= fun p =>
        emitAll conn world b (some split) splits p) = .outOfRange := by
      intro payload hle
      obtain ⟨p',hp,-⟩ := emit_ok ha hb payload p
      rw [hp,ok_bind]
      refine ih ?_ (some split) p'
      obtain ⟨s,hm,hlt⟩ := hs
      obtain rfl | hm := List.mem_cons.mp hm
      · omega
      · exact ⟨s,hm,hlt⟩
    cases previous with
    | none =>
      by_cases hle : split ≤ b.length
      · rw [emitAll,slice_of_le (Nat.zero_le _) hle,ok_bind,dropHeader]
        split
        · rw [sliceFrom]
          split
          · exact hnext _ hle
          · rfl
        · exact hnext _ hle
      · rw [emitAll,slice,if_neg fun h => hle h.2]
        rfl
    | some previous =>
      by_cases hle : previous ≤ split ∧ split ≤ b.length
      · rw [emitAll,slice_of_le hle.1 hle.2,ok_bind]
        exact hnext _ hle.2
      · rw [emitAll,slice,if_neg hle]
        rfl

end accepting

end emission

section write

variable {conn : Conn} {world : World} {b name : Bytes} {index length skipped : ℕ}

lemma writeSplit_eq (conn : Conn) (world : World) (b : Bytes) (index length : ℕ) (name : Bytes) :
    writeSplit conn world b ⟨index,length,name⟩ =
      when (conn.splitPacket && conn.tcpConn) (operate world) ⟨[],[],0⟩ >>= fun p =>
      splitIndexes world 0 index (used world.publicSuffix name) >>= fun splits =>
      emitAll conn world b none splits p >>= fun p =>
      when (conn.splitRecord && !conn.splitPacket) (fun p => send world p.buffer p) p >>= fun p =>
      when conn.tcpConn (operate world) p >>= fun p => .ok ⟨b.length,p.written⟩ := by
  rw [writeSplit,labelsOf_eq]
  simp only [ok_bind,skipDots_used]

lemma writeSplit_safe (hb : 5 ≤ b.length) (hi : 5 ≤ index) (hu : [] ∉ used world.publicSuffix name)
    (hl : index + joined (used world.publicSuffix name) ≤ b.length + 1) :
    (writeSplit conn world b ⟨index,length,name⟩).Safe := by
  rw [writeSplit_eq]
  refine (when_safe operate_safe _ _).bind fun p _ => ?_
  obtain ⟨splits,hs,hlen,ho,hin⟩ := splitIndexes_spec world hu 0 index
  have hn : splits ≠ [] := by
    rw [← List.length_pos_iff,hlen,List.length_pos_iff]
    exact used_ne_nil _ _
  rw [hs,ok_bind,emitAll_none hn ho fun s hm => ⟨by have := hin s hm; omega,
    by have := hin s hm; omega⟩]
  refine (emitEach_safe (by omega) _ p).bind fun p _ => ?_
  refine (when_safe (fun p => send_safe _ p) _ p).bind fun p _ => ?_
  exact (when_safe operate_safe _ p).bind fun _ _ => trivial

lemma writeSplit_panics (ha : ∀ i,world.accepts i = true) (hi : ∀ call n,world.intn call n = n - 1)
    (hb : 5 ≤ b.length) (h : [] ∈ used world.publicSuffix name ∨
      b.length + 1 < index + joined (used world.publicSuffix name)) :
    writeSplit conn world b ⟨index,length,name⟩ = .outOfRange := by
  have hw : ∃ p,when (conn.splitPacket && conn.tcpConn) (operate world) ⟨[],[],0⟩ = .ok p := by
    unfold when
    split
    · exact ⟨_,operate_ok ha _⟩
    · exact ⟨_,rfl⟩
  obtain ⟨p,hp⟩ := hw
  rw [writeSplit_eq,hp,ok_bind]
  by_cases he : [] ∈ used world.publicSuffix name
  · rw [splitIndexes_empty he]
    rfl
  · obtain ⟨splits,hs,hin⟩ := splitIndexes_last he (used_ne_nil _ _) hi 0 index
    have hlt := h.resolve_left he
    rw [hs,ok_bind,emitAll_panics ha (by omega) ⟨_,hin,by omega⟩]
    rfl

/-- If `b` has a hello with extensions, the walk over them ends, and where it ends at a server name,
the labels to be split are not empty and the index leaves the last of them inside. -/
def Harmless (publicSuffix : Bytes → Bytes) (b : Bytes) : Prop :=
  HasExtensions b → ¬Endless (walked b) ∧ ∀ skipped name, Named (walked b) skipped name →
    [] ∉ used publicSuffix name ∧
    nameIndex b skipped + joined (used publicSuffix name) ≤ b.length + 1

lemma write_settles (splitPacket splitRecord tcpConn : Bool) (world : World)
    {x : Outcome WriteError (Option MyServerName)}
    (h : Settles (fun fuel => indexTLSServerName fuel b) x) :
    Settles (fun fuel => write ⟨splitPacket,splitRecord,tcpConn,false⟩ world fuel b)
      (x >>= fun serverName =>
        match serverName with
        | some serverName => writeSplit ⟨splitPacket,splitRecord,tcpConn,false⟩ world b serverName
        | none => writePlain world b) := by
  simp only [write,Bool.false_eq_true,if_false]
  exact h.bind fun _ _ => .const _

lemma writePlain_safe (world : World) (b : Bytes) : (writePlain world b).Safe :=
  (send_safe _ _).bind fun _ _ => trivial

/-- The first write returns, whatever is chosen and however the connection behaves, exactly if it is
harmless. -/
theorem write_returns_iff (splitPacket splitRecord tcpConn : Bool) (publicSuffix : Bytes → Bytes)
    (b : Bytes) :
    (∀ intn accepts, Returns fun fuel =>
      write ⟨splitPacket,splitRecord,tcpConn,false⟩ ⟨publicSuffix,intn,accepts⟩ fuel b) ↔
      Harmless publicSuffix b := by
  have hnone : ∀ world, Settles (fun fuel => indexTLSServerName fuel b) (.ok none) →
      Returns fun fuel => write ⟨splitPacket,splitRecord,tcpConn,false⟩ world fuel b :=
    fun world h => (write_settles _ _ _ world h).returns_iff.mpr (writePlain_safe world b)
  constructor
  · intro h hext
    refine ⟨fun he => ?_,fun skipped name hna => ?_⟩
    · have hs := write_settles splitPacket splitRecord tcpConn
        ⟨publicSuffix,fun _ _ => 0,fun _ => true⟩ (settles_of_walk hext (he.settles 2))
      exact hs.returns_iff.mp (h _ _)
    · obtain ⟨length,hi⟩ := hna.index hext
      by_contra hbad
      have hs := write_settles splitPacket splitRecord tcpConn
        ⟨publicSuffix,fun _ n => n - 1,fun _ => true⟩ hi
      rw [ok_bind] at hs
      dsimp only at hs
      rw [writeSplit_panics (fun _ => rfl) (fun _ _ => rfl) hext.size ?_] at hs
      · exact hs.returns_iff.mp (h _ _)
      · rw [not_and_or,not_not,Nat.not_le] at hbad
        exact hbad
  · intro h intn accepts
    obtain ⟨-,hno⟩ | ⟨hext,-⟩ := indexTLSServerName_cases b
    · exact hnone _ ⟨0,fun fuel _ => hno fuel⟩
    obtain ⟨hends,hnames⟩ := h hext
    obtain he | ⟨skipped,name,hna⟩ | hno := walk_cases (walked b)
    · exact absurd he hends
    · obtain ⟨length,hi⟩ := hna.index hext
      obtain ⟨hu,hl⟩ := hnames skipped name hna
      refine (write_settles _ _ _ _ hi).returns_iff.mpr ?_
      rw [ok_bind]
      refine writeSplit_safe hext.size ?_ hu hl
      rw [nameIndex]
      omega
    · exact hnone _ (settles_of_walk hext (hno 2))

/-- A hello with an extension for these names, of which the first has a length of its own. -/
def helloWith (host : UInt8) (entries : Bytes) : Bytes :=
  let n := UInt8.ofNat entries.length
  [22,3,1,0,53 + n] ++ ([1,0,0,49 + n,3,3] ++ List.replicate 32 0 ++
    [0,0,0,0,0,9 + n,0,0,0,5 + n,0,3 + n,0,0,host] ++ entries)

/-- A hello with an extension of 65532 bytes, behind a header for an empty record. -/
def longExtension (body : Bytes) : Bytes :=
  [22,3,1,0,0] ++ ([1,1,0,40,3,3] ++ List.replicate 32 0 ++ [0,0,0,0,0,0,0,1,255,252] ++
    body)

lemma named_empty : HasExtensions (helloWith 0 []) ∧ Named (walked (helloWith 0 [])) 0 [] := by
  have hn : (firstBody (walked (helloWith 0 []))).drop 5 = [] := by decide +kernel
  refine ⟨⟨?_,?_,?_,⟨?_,?_,?_,?_,?_,⟨?_,?_,?_⟩⟩,?_⟩,hn ▸ .here ?_ ?_ ?_ ?_⟩ <;>
    decide +kernel

lemma endless_longExtension {body : Bytes} (hb : body.length = 65532) :
    HasExtensions (longExtension body) ∧ Endless (walked (longExtension body)) := by
  have hs : suitesOf ((longExtension body).drop 5) = [0,0,0,0,0,0,1,255,252] ++ body := rfl
  have hm : methodsEnd ([0,0,0,0,0,0,1,255,252] ++ body) = 3 := by
    simp [methodsEnd,be16,byteAt]
  have he : extensionsOf (suitesOf ((longExtension body).drop 5)) = [0,0,0,1,255,252] ++ body := by
    rw [hs,extensionsOf,hm]
    rfl
  have hw : walked (longExtension body) = [0,1,255,252] ++ body := by
    rw [walked,he]
    rfl
  refine ⟨⟨?_,rfl,?_,⟨?_,rfl,?_,?_,?_,⟨?_,?_,?_⟩⟩,?_⟩,?_⟩
  · simp [longExtension]
  · simp [longExtension,be16,byteAt]
  · simp [longExtension]
  · simp [longExtension,be16,byteAt,hb]
  · have hv : be16 ((longExtension body).drop 5) 4 = 0x0303 := by simp [longExtension,be16,byteAt]
    rw [hv]
    decide
  · simp [longExtension,byteAt]
  · rw [hs]
    simp
  · rw [hs]
    simp [be16,byteAt]
  · rw [hs,hm]
    simp
  · rw [he]
    simp [be16,byteAt]
  · rw [hw]
    refine .here ?_ ?_ ?_ <;> simp [be16,byteAt,hb]

/-- The last label, as the public suffix of a name without a rule for it. -/
def lastLabel (name : Bytes) : Bytes := (name.splitOn 46).getLastD []

/-- A panic at an empty server name, and a walk that never ends. -/
theorem writes_that_do_not_return :
    ¬Returns (fun fuel => write ⟨true,false,false,false⟩ ⟨lastLabel,fun _ _ => 0,fun _ => true⟩
      fuel (helloWith 0 [])) ∧
    ¬Returns (fun fuel => write ⟨true,false,false,false⟩ ⟨lastLabel,fun _ _ => 0,fun _ => true⟩
      fuel (longExtension (List.replicate 65532 0))) := by
  constructor
  · obtain ⟨hext,hna⟩ := named_empty
    obtain ⟨length,hi⟩ := hna.index hext
    have hs := write_settles true false false ⟨lastLabel,fun _ _ => 0,fun _ => true⟩ hi
    rw [ok_bind] at hs
    dsimp only at hs
    rw [writeSplit_eq,splitIndexes_empty (by decide)] at hs
    exact hs.returns_iff.not.mpr id
  · obtain ⟨hext,he⟩ := endless_longExtension List.length_replicate
    have hs := write_settles true false false ⟨lastLabel,fun _ _ => 0,fun _ => true⟩
      (settles_of_walk hext (he.settles 2))
    exact hs.returns_iff.not.mpr id

end write

section preserved

def hostLength (b : Bytes) (skipped : ℕ) : ℕ := be16 b (nameIndex b skipped - 2)

/-- The host name ends its extension, or a public suffix is known and a dot is in the name or right
behind it. -/
def CutInside (publicSuffix : Bytes → Bytes) (entries : Bytes) (host : ℕ) : Prop :=
  entries.length = host ∨ publicSuffix entries ≠ [] ∧ 46 ∈ entries.take (host + 1)

inductive SplitAt (world : World) (b : Bytes) : List ℕ → Prop
  | unnamed (h : Settles (fun fuel => indexTLSServerName fuel b) (.ok none)) : SplitAt world b []
  | named {index length : ℕ} {name : Bytes} {splits : List ℕ}
      (h : Settles (fun fuel => indexTLSServerName fuel b) (.ok (some ⟨index,length,name⟩)))
      (labels : splitIndexes world 0 index (used world.publicSuffix name) = .ok splits) :
      SplitAt world b splits

/-- The packets are `b`, or records with the type and the version of `b` and what is behind its
header. -/
structure Preserved (splitRecord : Bool) (b : Bytes) (splits : List ℕ) (written : List Bytes) :
    Prop where
  packets : splitRecord = false → written = pieces b 0 splits ∧ written.flatten = b
  records : splitRecord = true → written.flatten = ((pieces b 5 splits).map (record b)).flatten ∧
    (pieces b 5 splits).flatten = b.drop 5 ∧
    ∀ payload ∈ pieces b 5 splits, be16 (record b payload) 3 = payload.length

/-- The first write returns the length of `b`, preserves `b`, and splits it only in the host name. -/
def Kept (splitPacket splitRecord tcpConn : Bool) (world : World) (b : Bytes) : Prop :=
  ∃ splits written, SplitAt world b splits ∧
    Settles (fun fuel => write ⟨splitPacket,splitRecord,tcpConn,false⟩ world fuel b)
      (.ok ⟨b.length,written⟩) ∧
    Preserved splitRecord b splits written ∧
    ∀ skipped entries, Named (walked b) skipped entries → ∀ s ∈ splits,
      nameIndex b skipped ≤ s ∧ s < nameIndex b skipped + hostLength b skipped

variable {world : World} {b name : Bytes} {skipped : ℕ}

lemma splitOn_first (name : Bytes) :
    ∃ labels,name.splitOn 46 = name.takeWhile (· ≠ 46) :: labels := by
  induction name with
  | nil => exact ⟨[],rfl⟩
  | cons x name ih =>
    obtain ⟨labels,hl⟩ := ih
    rw [splitOn_cons]
    by_cases hx : x = 46
    · exact ⟨_,by rw [if_pos hx,List.takeWhile_cons_of_neg (by simp [hx])]⟩
    · exact ⟨labels,by rw [if_neg hx,hl,List.takeWhile_cons_of_pos (by simp [hx])]; rfl⟩

lemma first_le_iff (name : Bytes) (n : ℕ) :
    (name.takeWhile (· ≠ 46)).length ≤ n ↔ name.length ≤ n ∨ 46 ∈ name.take (n + 1) := by
  induction name generalizing n with
  | nil => simp
  | cons x name ih =>
    by_cases hx : x = 46
    · simp [hx]
    · rw [List.takeWhile_cons_of_pos (by simp [hx])]
      cases n with
      | zero => simp [Ne.symm hx]
      | succ n =>
        rw [List.length_cons,List.length_cons,Nat.add_le_add_iff_right,Nat.add_le_add_iff_right,ih]
        simp [Ne.symm hx]

lemma first_ne_nil {host : ℕ} (h : [] ∉ (name.take host).splitOn 46) :
    name.takeWhile (· ≠ 46) ≠ [] := by
  cases host with
  | zero => simp at h
  | succ host =>
    cases name with
    | nil => simp at h
    | cons x name =>
      rw [List.take_succ_cons,splitOn_cons] at h
      by_cases hx : x = 46
      · simp [hx] at h
      · simp [hx]

lemma cutInside_iff {publicSuffix : Bytes → Bytes} {entries : Bytes} {host : ℕ}
    (hfit : host ≤ entries.length) (hlabels : [] ∉ (entries.take host).splitOn 46) :
    [] ∉ used publicSuffix entries ∧ joined (used publicSuffix entries) ≤ host ↔
      CutInside publicSuffix entries host := by
  unfold used CutInside
  by_cases hp : publicSuffix entries = []
  · obtain ⟨hl,hsum,-⟩ := splitOn_spec entries
    have hj : joined (entries.splitOn 46) = entries.length := by
      rw [joined]
      omega
    rw [if_neg (by simp [hp]),hj]
    constructor
    · exact fun h => .inl (by omega)
    · intro h
      have he := h.resolve_right fun h => h.1 hp
      rw [← he,List.take_length] at hlabels
      exact ⟨hlabels,by omega⟩
  · obtain ⟨labels,hl⟩ := splitOn_first entries
    have hfirst := first_ne_nil hlabels
    have hj : joined [entries.takeWhile (· ≠ 46)] = (entries.takeWhile (· ≠ 46)).length := by
      simp [joined]
    rw [if_pos hp,hl,List.take_succ_cons,List.take_zero,hj,first_le_iff,List.mem_singleton]
    constructor
    · rintro ⟨-,h | h⟩
      · exact .inl (by omega)
      · exact .inr ⟨hp,h⟩
    · rintro (h | h)
      · exact ⟨Ne.symm hfirst,.inl (by omega)⟩
      · exact ⟨Ne.symm hfirst,.inr h.2⟩

lemma flatten_pieces {previous : ℕ} {splits : List ℕ} (ho : (previous :: splits).Pairwise (· ≤ ·)) :
    (pieces b previous splits).flatten = b.drop previous := by
  induction splits generalizing previous with
  | nil => simp [pieces]
  | cons split splits ih =>
    rw [List.pairwise_cons] at ho
    have hd : b.drop split = (b.drop previous).drop (split - previous) := by
      rw [List.drop_drop,Nat.add_sub_cancel' (ho.1 split List.mem_cons_self)]
    rw [pieces,List.flatten_cons,ih ho.2,hd,List.take_append_drop]

lemma be16_record {payload : Bytes} (hb : 3 ≤ b.length) (hp : payload.length < 65536) :
    be16 (record b payload) 3 = payload.length := by
  match b,hb with
  | x :: y :: z :: rest,_ =>
    have hh : byteAt (record (x :: y :: z :: rest) payload) 3 = payload.length / 256 % 256 :=
      UInt8.toNat_ofNat'
    have hl : byteAt (record (x :: y :: z :: rest) payload) 4 = payload.length % 256 :=
      UInt8.toNat_ofNat'
    rw [be16,hh,hl]
    omega

lemma record_drop (hl : b.length = 5 + be16 b 3) : record b (b.drop 5) = b := by
  obtain ⟨x,y,z,high,low,rest,rfl⟩ : ∃ x y z high low rest,
      b = x :: y :: z :: high :: low :: rest := by
    have h5 : 5 ≤ b.length := by omega
    clear hl
    match b,h5 with
    | x :: y :: z :: high :: low :: rest,_ => exact ⟨x,y,z,high,low,rest,rfl⟩
  have hlow := low.toNat_lt
  have hr : rest.length = high.toNat * 256 + low.toNat := by
    have hb : be16 (x :: y :: z :: high :: low :: rest) 3 = high.toNat * 256 + low.toNat := by
      simp [be16,byteAt]
    rw [hb] at hl
    simp only [List.length_cons] at hl
    omega
  have hh : UInt8.ofNat (rest.length / 256) = high := by
    rw [hr,show (high.toNat * 256 + low.toNat) / 256 = high.toNat by omega,UInt8.ofNat_toNat]
  have hlo : UInt8.ofNat rest.length = low := by
    rw [← UInt8.toNat_inj,UInt8.toNat_ofNat',hr]
    omega
  simp [record,hh,hlo]

lemma when_operate (ha : ∀ i,world.accepts i = true) (condition : Bool) (p : Progress) :
    ∃ p',when condition (operate world) p = .ok p' ∧ p'.written = p.written ∧
      p'.buffer = p.buffer := by
  unfold when
  split
  · exact ⟨_,operate_ok ha p,rfl,rfl⟩
  · exact ⟨p,rfl,rfl,rfl⟩

lemma walked_eq (b : Bytes) : walked b = b.drop (5 + extensionsAt (b.drop 5) + 2) := by
  rw [walked,← drop_extensionsAt,List.drop_drop,List.drop_drop,Nat.add_assoc]

lemma located_of_length (hl : b.length = 5 + be16 b 3) (hn : Named (walked b) skipped name) :
    (b.drop (nameIndex b skipped)).take name.length = name ∧
      nameIndex b skipped + name.length ≤ b.length := by
  have hlt := be16_lt b 3
  obtain ⟨ht,hle⟩ := hn.located (by rw [walked_eq,List.length_drop]; omega)
  rw [walked_eq,List.length_drop] at hle
  rw [walked_eq,List.drop_drop] at ht
  rw [nameIndex]
  exact ⟨by rwa [← Nat.add_assoc] at ht,by omega⟩

lemma writeSplit_ok (conn : Conn) {index : ℕ} (length : ℕ) (ha : ∀ i,world.accepts i = true)
    (hb : 5 ≤ b.length) (hi : 5 ≤ index) (hu : [] ∉ used world.publicSuffix name)
    (hle : index + name.length ≤ b.length) :
    ∃ splits written,writeSplit conn world b ⟨index,length,name⟩ = .ok ⟨b.length,written⟩ ∧
      splitIndexes world 0 index (used world.publicSuffix name) = .ok splits ∧
      splits.Pairwise (· ≤ ·) ∧
      (∀ s ∈ splits,index ≤ s ∧ s < index + joined (used world.publicSuffix name)) ∧
      written = if conn.splitPacket then (pieces b (if conn.splitRecord then 5 else 0) splits).map
            fun payload => if conn.splitRecord then record b payload else payload
        else if conn.splitRecord then [((pieces b 5 splits).map (record b)).flatten] else [] := by
  obtain ⟨splits,hs,hlen,ho,hin⟩ := splitIndexes_spec world hu 0 index
  have hj := joined_used_le world.publicSuffix name
  have hn : splits ≠ [] := by
    rw [← List.length_pos_iff,hlen,List.length_pos_iff]
    exact used_ne_nil _ _
  obtain ⟨p₀,hp₀,hw₀,hb₀⟩ :=
    when_operate ha (conn.splitPacket && conn.tcpConn) ⟨[],[],0⟩
  obtain ⟨p₁,hp₁,hw₁,hb₁⟩ := emitEach_ok ha (show 3 ≤ b.length by omega)
    (pieces b (if conn.splitRecord then 5 else 0) splits) p₀
  have he : emitAll conn world b none splits p₀ = .ok p₁ := by
    rw [emitAll_none hn ho fun s hm => ?_,hp₁]
    have hsm := hin s hm
    omega
  have hsend : ∃ p₂,when (conn.splitRecord && !conn.splitPacket) (fun p => send world p.buffer p) p₁ =
      .ok p₂ ∧ p₂.written = p₁.written ++
        if conn.splitRecord && !conn.splitPacket then [p₁.buffer] else [] := by
    unfold when send
    dsimp only
    rw [operate_ok ha]
    split
    · exact ⟨_,rfl,rfl⟩
    · exact ⟨_,rfl,by simp⟩
  obtain ⟨p₂,hp₂,hw₂⟩ := hsend
  obtain ⟨p₃,hp₃,hw₃,-⟩ := when_operate ha conn.tcpConn p₂
  refine ⟨splits,p₃.written,?_,hs,ho,hin,?_⟩
  · rw [writeSplit_eq,hp₀,ok_bind,hs,ok_bind,he,ok_bind,hp₂,ok_bind,hp₃,ok_bind]
  · rw [hw₃,hw₂,hw₁,hw₀]
    cases hr : conn.splitRecord with
    | false => cases conn.splitPacket <;> simp
    | true =>
      cases hp : conn.splitPacket with
      | false => simp [hb₁ hr hp,hb₀,hr]
      | true => simp

lemma Named.unique {skipped' : ℕ} {name' : Bytes} (hext : HasExtensions b)
    (h : Named (walked b) skipped name) (h' : Named (walked b) skipped' name') :
    skipped' = skipped ∧ name' = name := by
  obtain ⟨length,hi⟩ := h.index hext
  obtain ⟨length',hi'⟩ := h'.index hext
  have he := hi.unique hi'
  rw [Outcome.ok.injEq,Option.some.injEq,MyServerName.mk.injEq,nameIndex,nameIndex] at he
  exact ⟨by omega,he.2.2.symm⟩

lemma Endless.length {exs : Bytes} (h : Endless exs) : 65536 ≤ exs.length := by
  induction h with
  | here whole other length => omega
  | later whole other rest ih =>
    rw [List.length_drop] at ih
    omega

lemma preserved {splitPacket splitRecord : Bool} {splits : List ℕ}
    (hone : splitPacket = true ∨ splitRecord = true) (hlen : b.length = 5 + be16 b 3)
    (h5 : ∀ s ∈ splits,5 ≤ s) (ho : splits.Pairwise (· ≤ ·)) :
    Preserved splitRecord b splits (if splitPacket then
        (pieces b (if splitRecord then 5 else 0) splits).map
          fun payload => if splitRecord then record b payload else payload
      else if splitRecord then [((pieces b 5 splits).map (record b)).flatten] else []) := by
  constructor
  · rintro rfl
    have hf : (pieces b 0 splits).flatten = b := flatten_pieces (.cons (fun _ _ => Nat.zero_le _) ho)
    simp [hone.resolve_right (by simp),hf]
  · rintro rfl
    have hf : (pieces b 5 splits).flatten = b.drop 5 := flatten_pieces (.cons h5 ho)
    refine ⟨by cases splitPacket <;> simp,hf,fun payload hm => ?_⟩
    have hl := (List.sublist_flatten_of_mem hm).length_le
    have hlt := be16_lt b 3
    rw [hf,List.length_drop] at hl
    exact be16_record (by omega) (by omega)

lemma kept_of_unnamed (splitPacket splitRecord tcpConn : Bool) (ha : ∀ i,world.accepts i = true)
    (hlen : b.length = 5 + be16 b 3) (h : Settles (fun fuel => indexTLSServerName fuel b) (.ok none)) :
    Kept splitPacket splitRecord tcpConn world b := by
  have hr := record_drop hlen
  have hw : writePlain world b = .ok ⟨b.length,[b]⟩ := by
    rw [writePlain,send,operate_ok ha]
    rfl
  have hs := write_settles splitPacket splitRecord tcpConn world h
  rw [ok_bind] at hs
  dsimp only at hs
  rw [hw] at hs
  refine ⟨[],[b],.unnamed h,hs,⟨fun _ => by simp [pieces],fun _ => ?_⟩,by simp⟩
  refine ⟨by simp [pieces,hr],by simp [pieces],fun payload hm => ?_⟩
  rw [pieces,List.mem_singleton] at hm
  rw [hm,hr,List.length_drop]
  omega

lemma kept_of_named {splitPacket splitRecord : Bool} (tcpConn : Bool) {entries : Bytes}
    (ha : ∀ i,world.accepts i = true) (hlen : b.length = 5 + be16 b 3)
    (hone : splitPacket = true ∨ splitRecord = true) (hext : HasExtensions b)
    (hna : Named (walked b) skipped entries) (hu : [] ∉ used world.publicSuffix entries)
    (hj : joined (used world.publicSuffix entries) ≤ hostLength b skipped) :
    Kept splitPacket splitRecord tcpConn world b := by
  obtain ⟨length,hi⟩ := hna.index hext
  have h5 : 5 ≤ nameIndex b skipped := by
    rw [nameIndex]
    omega
  obtain ⟨splits,written,hw,hs,ho,hin,hwritten⟩ :=
    writeSplit_ok ⟨splitPacket,splitRecord,tcpConn,false⟩ length ha hext.size h5 hu
      (located_of_length hlen hna).2
  have hset := write_settles splitPacket splitRecord tcpConn world hi
  rw [ok_bind] at hset
  dsimp only at hset
  rw [hw] at hset
  refine ⟨splits,written,.named hi hs,hset,hwritten ▸ preserved hone hlen (fun s hm => ?_) ho,?_⟩
  · have hsm := hin s hm
    omega
  · intro skipped' entries' hna' s hm
    have hsm := hin s hm
    rw [(hna.unique hext hna').1]
    omega

lemma cutInside_of_kept {splitPacket splitRecord tcpConn : Bool} {entries : Bytes}
    (hi : ∀ call n,world.intn call n = n - 1) (hext : HasExtensions b)
    (hna : Named (walked b) skipped entries) (h : Kept splitPacket splitRecord tcpConn world b) :
    [] ∉ used world.publicSuffix entries ∧
      joined (used world.publicSuffix entries) ≤ hostLength b skipped := by
  obtain ⟨length,hx⟩ := hna.index hext
  obtain ⟨splits,written,hs,-,-,hin⟩ := h
  cases hs with
  | unnamed hno => cases hx.unique hno
  | named hx' labels =>
    cases hx.unique hx'
    have he : [] ∉ used world.publicSuffix entries := by
      intro he
      rw [splitIndexes_empty he] at labels
      cases labels
    obtain ⟨splits',hs',hm⟩ := splitIndexes_last he (used_ne_nil _ _) hi 0 (nameIndex b skipped)
    cases hs'.symm.trans labels
    have hlast := hin skipped entries hna _ hm
    exact ⟨he,by omega⟩

/-- One record is written whole, and split only in the host name of a hello, whatever is chosen,
exactly if the labels that are split are inside the host name. -/
theorem hello_preserved_iff (splitPacket splitRecord tcpConn : Bool) (publicSuffix : Bytes → Bytes)
    (hlen : b.length = 5 + be16 b 3) (hone : splitPacket = true ∨ splitRecord = true)
    (hhost : HasExtensions b → ∀ skipped entries, Named (walked b) skipped entries →
      hostLength b skipped ≤ entries.length ∧
      [] ∉ (entries.take (hostLength b skipped)).splitOn 46) :
    (∀ intn accepts, (∀ i, accepts i = true) →
      Kept splitPacket splitRecord tcpConn ⟨publicSuffix,intn,accepts⟩ b) ↔
      (HasExtensions b → ∀ skipped entries, Named (walked b) skipped entries →
        CutInside publicSuffix entries (hostLength b skipped)) := by
  constructor
  · intro h hext skipped entries hna
    obtain ⟨hfit,hlabels⟩ := hhost hext skipped entries hna
    rw [← cutInside_iff hfit hlabels]
    exact cutInside_of_kept (fun _ _ => rfl) hext hna
      (h (fun _ n => n - 1) (fun _ => true) fun _ => rfl)
  · intro h intn accepts ha
    obtain ⟨-,hno⟩ | ⟨hext,-⟩ := indexTLSServerName_cases b
    · exact kept_of_unnamed _ _ _ ha hlen ⟨0,fun fuel _ => hno fuel⟩
    obtain he | ⟨skipped,entries,hna⟩ | hno := walk_cases (walked b)
    · have hl := he.length
      have hlt := be16_lt b 3
      rw [walked_eq,List.length_drop] at hl
      omega
    · obtain ⟨hfit,hlabels⟩ := hhost hext skipped entries hna
      obtain ⟨hu,hj⟩ := (cutInside_iff hfit hlabels).mpr (h hext skipped entries hna)
      exact kept_of_named tcpConn ha hlen hone hext hna hu hj
    · exact kept_of_unnamed _ _ _ ha hlen (settles_of_walk hext (hno 2))

def twoLabels : Bytes := helloWith 3 [97,46,98]

lemma named_twoLabels : HasExtensions twoLabels ∧ Named (walked twoLabels) 0 [97,46,98] := by
  have hn : (firstBody (walked twoLabels)).drop 5 = [97,46,98] := by decide +kernel
  refine ⟨⟨?_,?_,?_,⟨?_,?_,?_,?_,?_,⟨?_,?_,?_⟩⟩,?_⟩,hn ▸ .here ?_ ?_ ?_ ?_⟩ <;>
    decide +kernel

theorem twoLabels_preserved : twoLabels.length = 5 + be16 twoLabels 3 ∧
    Kept true true false ⟨lastLabel,fun _ _ => 1,fun _ => true⟩ twoLabels := by
  obtain ⟨hext,hna⟩ := named_twoLabels
  have hlen : twoLabels.length = 5 + be16 twoLabels 3 := by decide +kernel
  refine ⟨hlen,(hello_preserved_iff true true false lastLabel hlen (.inl rfl) ?_).mpr ?_ _ _
    fun _ => rfl⟩
  · intro _ skipped entries h
    obtain ⟨rfl,rfl⟩ := hna.unique hext h
    decide +kernel
  · intro _ skipped entries h
    obtain ⟨rfl,rfl⟩ := hna.unique hext h
    exact .inl (by decide +kernel)

def twoNames : Bytes := helloWith 1 [97,1,0,2,98,99]

lemma named_twoNames : HasExtensions twoNames ∧ Named (walked twoNames) 0 [97,1,0,2,98,99] := by
  have hn : (firstBody (walked twoNames)).drop 5 = [97,1,0,2,98,99] := by decide +kernel
  refine ⟨⟨?_,?_,?_,⟨?_,?_,?_,?_,?_,⟨?_,?_,?_⟩⟩,?_⟩,hn ▸ .here ?_ ?_ ?_ ?_⟩ <;>
    decide +kernel

/-- The packet ends in the name of the other type. -/
theorem split_behind_host :
    twoNames.length = 5 + be16 twoNames 3 ∧
    (twoNames.drop (nameIndex twoNames 0)).take (hostLength twoNames 0) = [97] ∧
    write ⟨true,false,false,false⟩ ⟨lastLabel,fun _ n => n - 1,fun _ => true⟩ 2 twoNames =
      .ok ⟨twoNames.length,[twoNames.take (nameIndex twoNames 0 + 5),
        twoNames.drop (nameIndex twoNames 0 + 5)]⟩ ∧
    ¬Kept true false false ⟨lastLabel,fun _ n => n - 1,fun _ => true⟩ twoNames := by
  refine ⟨by decide +kernel,by decide +kernel,by decide +kernel,fun h => ?_⟩
  obtain ⟨hext,hna⟩ := named_twoNames
  have hj := (cutInside_of_kept (fun _ _ => rfl) hext hna h).2
  revert hj
  decide +kernel

end preserved

end SingBoxAuth.TLSFragment
