import SingBoxAuth.DynamicRows

/-! The poll of the Postgres table: fetchAll applies the rows that its query selects to the quota
service or to the speed limiter, and no row is selected for what was deleted or set to zero. -/
namespace SingBoxAuth.DynamicConfig
open Interleaving SpeedLimiter

structure TableRow where
  name : String
  uploadMbps : Option ℤ
  downloadMbps : Option ℤ
  perClient : Option Bool
  quotaGB : Option ℚ
  quotaPeriod : Option String
  quotaPeriodStart : Option String
  quotaPeriodDays : Option ℤ

namespace TableRow

variable (row : TableRow)

def selected : Bool :=
  row.uploadMbps.any (0 < ·) || row.downloadMbps.any (0 < ·) || row.quotaGB.any (0 < ·)

def toConfig : ConfigRow :=
  ⟨row.name,row.uploadMbps.getD 0,row.downloadMbps.getD 0,row.perClient,row.quotaGB.getD 0,
    row.quotaPeriod.getD "",row.quotaPeriodStart.getD "",row.quotaPeriodDays.getD 0,true⟩

end TableRow

structure Table where
  rows : List TableRow
  names : (rows.map TableRow.name).Nodup

namespace Table

variable (table : Table)

def query : List ConfigRow := (table.rows.filter TableRow.selected).map TableRow.toConfig

def row (u : String) : Option TableRow := table.rows.find? (·.name = u)

end Table

/-- The loop of fetchAll. An error of Apply is logged; the result says whether there was none. -/
def fetchAll {State Err : Type} (apply : ConfigRow → State → List (Except Err Unit × State)) :
    List ConfigRow → State → List (Bool × State)
  | [], s => [(true,s)]
  | row :: rows, s => (apply row s).flatMap fun o =>
      (fetchAll apply rows o.2).map fun r => (o.1.isOk && r.1,r.2)

def applySpeed (zone : ℤ → ℤ) (now : ℤ) (row : ConfigRow) (m : LimiterManager) :
    List (Except SpeedError Unit × LimiterManager) :=
  match m.applyDynamic zone row.speed now with
  | .ok m' => [(.ok (),m')]
  | .error err => [(.error err,m)]

def applyQuota (text : TrafficQuota.TimeText) (t : ℕ) (row : ConfigRow) (w : TrafficQuota.World) :
    List (Except TrafficQuota.QuotaError Unit × TrafficQuota.World) :=
  (TrafficQuota.applyDynamic text row.quota).runs TrafficQuota.outcomes t w

def ConfigRow.wantedQuota (text : TrafficQuota.TimeText) (row : ConfigRow) :
    Option TrafficQuota.QuotaConfig :=
  if row.quotaGB ≤ 0 then none else (rowConfig text row).toOption

/-- The entry of a user in the speed limiter, and the override that is made from it. -/
def speedOf (s : ConfigSnapshot) (u : String) : Option SpeedLimiterUser × Option SpeedConfig :=
  (s.userRawConfig u,s.userOverrides u)

def ConfigRow.wantedSpeed (row : ConfigRow) : Option SpeedLimiterUser × Option SpeedConfig :=
  if row.speed.noSpeed then (none,none)
  else (some row.speed.toUser,some ⟨row.uploadMbps,row.downloadMbps,false⟩)

section loop

variable {State Err V : Type} {apply : ConfigRow → State → List (Except Err Unit × State)}
  {rows : List ConfigRow} {s s' : State}

lemma fetchAll_sets (Inv : State → Prop) (view : State → String → V) (wanted : ConfigRow → V)
    (ha : ∀ row ∈ rows,∀ s s',Inv s → (.ok (),s') ∈ apply row s → Inv s' ∧
      view s' row.user = wanted row ∧ ∀ v,v ≠ row.user → view s' v = view s v)
    (hn : (rows.map ConfigRow.user).Nodup) (hs : Inv s)
    (hru : (true,s') ∈ fetchAll apply rows s) :
    (∀ row ∈ rows,view s' row.user = wanted row) ∧
      ∀ u,u ∉ rows.map ConfigRow.user → view s' u = view s u := by
  induction rows generalizing s with
  | nil =>
    cases List.mem_singleton.mp hru
    exact ⟨nofun,fun _ _ => rfl⟩
  | cons row rows ih =>
    obtain ⟨⟨result,next⟩,hme,hl⟩ := List.mem_flatMap.mp hru
    obtain ⟨⟨rest,last⟩,hlo,heq⟩ := List.mem_map.mp hl
    obtain ⟨hf,rfl⟩ := Prod.mk.inj heq
    obtain ⟨hok,rfl⟩ := (Bool.and_eq_true _ _).mp hf
    obtain ⟨hno,hn⟩ := List.nodup_cons.mp hn
    cases result with
    | error err => cases hok
    | ok _ =>
      obtain ⟨hi,hset,ho⟩ := ha row List.mem_cons_self s next hs hme
      obtain ⟨hro,hr⟩ := ih (fun row' hr' => ha row' (List.mem_cons_of_mem _ hr')) hn hi hlo
      refine ⟨fun row' hr' => ?_,fun u hu => ?_⟩
      · rcases List.mem_cons.mp hr' with rfl | hr'
        · rw [hr _ hno,hset]
        · exact hro row' hr'
      · rw [List.map_cons,List.mem_cons,not_or] at hu
        rw [hr u hu.2,ho u hu.1]

end loop

section apply

variable {row : ConfigRow}

lemma applySpeed_sets {zone : ℤ → ℤ} {now : ℤ} {m m' : LimiterManager}
    (hr : row.authoritative = true) (h : (.ok (),m') ∈ applySpeed zone now row m) :
    speedOf m'.config row.user = row.wantedSpeed ∧
      ∀ v,v ≠ row.user → speedOf m'.config v = speedOf m.config v := by
  have ha : m.applyDynamic zone row.speed now = .ok m' := by
    unfold applySpeed at h
    split at h
    · next heq => simpa [heq,eq_comm] using h
    · simp at h
  unfold LimiterManager.applyDynamic at ha
  unfold ConfigRow.wantedSpeed
  split_ifs at ha ⊢ with hno hau
  · exact absurd hau (by simp [show row.speed.authoritative = true from hr])
  · cases hg : m.config.getConfig row.speed.user with
    | none =>
      rw [hg] at ha
      cases ha
      refine ⟨Prod.ext hg ?_,fun _ _ => rfl⟩
      exact (m.config.coherent row.user hg).2
    | some raw =>
      rw [hg] at ha
      obtain ⟨config,hco,rfl⟩ := map_eq_ok ha
      have hn : row.speed.user ≠ "" := (m.config.named _ raw hg).2
      rw [ConfigSnapshot.removeConfig,if_neg hn] at hco
      cases hco
      refine ⟨?_,fun v hv => ?_⟩
      · simp [speedOf,ConfigSnapshot.setMaps,ConfigRow.speed]
      · simp [speedOf,ConfigSnapshot.setMaps,ConfigRow.speed,Function.update_of_ne hv]
  · obtain ⟨config,hco,rfl⟩ := map_eq_ok ha
    have ho : row.speed.toUser.override =
        some ⟨row.uploadMbps,row.downloadMbps,false⟩ := if_pos (speed_of_not_noSpeed hno)
    unfold ConfigSnapshot.applyConfig at hco
    split_ifs at hco
    cases hco
    have hn : row.speed.toUser.name = row.user := rfl
    refine ⟨?_,fun v hv => ?_⟩
    · simp [speedOf,ConfigSnapshot.setMaps,LimiterManager.applyRuntimeState,
        LimiterManager.updateLimiterRates,ho,hn]
    · simp [speedOf,ConfigSnapshot.setMaps,LimiterManager.applyRuntimeState,
        LimiterManager.updateLimiterRates,hn,Function.update_of_ne hv]

open TrafficQuota in
lemma applyQuota_sets {text : TimeText} {t : ℕ} {w w' : World} (hw : Unlocked w)
    (hr : row.authoritative = true) (h : (.ok (),w') ∈ applyQuota text t row w) :
    Unlocked w' ∧ w'.userConfigs.lookup row.user = row.wantedQuota text ∧
      ∀ v,v ≠ row.user → w'.userConfigs.lookup v = w.userConfigs.lookup v := by
  have hme : (.ok (),w'.accounts) ∈ w.accounts.applyDynamic text row.quota :=
    (applyDynamic_results text row.quota hw _).mpr ⟨_,w',h,rfl⟩
  suffices hset : w.accounts.SameLocks w'.accounts ∧
      (w'.accounts.account row.user).config = row.wantedQuota text ∧
      ∀ v,v ≠ row.user → (w'.accounts.account v).config = (w.accounts.account v).config from
    ⟨hw.of_sameLocks hset.1,hset.2⟩
  unfold Accounts.applyDynamic at hme
  unfold ConfigRow.wantedQuota
  by_cases hqu : row.quotaGB ≤ 0
  · rw [if_pos hqu]
    rw [if_pos (show row.quota.quotaGB ≤ 0 from hqu)] at hme
    split_ifs at hme with hcl
    · have hn : row.quota.user ≠ "" := by
        intro he
        obtain ⟨c,hc⟩ := Option.isSome_iff_exists.mp hcl.2
        rw [Accounts.remove_of_some hc,if_pos he] at hme
        simp at hme
      refine ⟨w.accounts.remove_locks hme,?_⟩
      rw [(w.accounts.remove_ok_iff hn _).mp hme]
      refine ⟨?_,fun v hv => congrArg Account.config (Function.update_of_ne hv _ _)⟩
      simp only [Accounts.setAccount,ConfigRow.quota,Function.update_self,Account.cleared]
      split <;> rfl
    · have hs : w'.accounts = w.accounts := by simpa using hme
      have hno : (w.accounts.account row.user).config = none := by
        simpa [hr,ConfigRow.quota] using hcl
      rw [hs]
      exact ⟨⟨rfl,rfl,rfl,rfl⟩,hno,fun _ _ => rfl⟩
  · rw [if_neg hqu]
    rw [if_neg (show ¬ row.quota.quotaGB ≤ 0 from hqu)] at hme
    refine ⟨w.accounts.apply_locks hme,?_⟩
    change _ ∈ w.accounts.apply row.user (rowConfig text row) at hme
    cases hco : rowConfig text row with
    | error err =>
      rw [hco] at hme
      simp [Accounts.apply] at hme
    | ok c =>
      rw [hco] at hme
      obtain ⟨-,hset,ho⟩ := Accounts.apply_ok hme
      exact ⟨hset,fun v hv => congrArg Account.config (ho v hv)⟩

end apply

namespace Table

variable (table : Table) {u : String}

def Selects (u : String) : Prop := ∃ row ∈ table.rows, row.name = u ∧ row.selected = true

/-- What the table says about a user: nothing if there is no row. -/
def quota (text : TrafficQuota.TimeText) (u : String) : Option TrafficQuota.QuotaConfig :=
  (table.row u).bind fun row => row.toConfig.wantedQuota text

def speed (u : String) : Option SpeedLimiterUser × Option SpeedConfig :=
  ((table.row u).map fun row => row.toConfig.wantedSpeed).getD (none,none)

lemma row_of_mem {row : TableRow} (h : row ∈ table.rows) : table.row row.name = some row := by
  obtain ⟨found,hf⟩ : ∃ found,table.row row.name = some found :=
    Option.isSome_iff_exists.mp (List.find?_isSome.mpr ⟨row,h,by simp⟩)
  have hn : found.name = row.name := by simpa using List.find?_some hf
  rw [hf,List.inj_on_of_nodup_map table.names (List.mem_of_find?_eq_some hf) h hn]

lemma mem_query {row : TableRow} (h : row ∈ table.rows) (hs : row.selected = true) :
    row.toConfig ∈ table.query :=
  List.mem_map_of_mem (List.mem_filter.mpr ⟨h,hs⟩)

lemma selects_iff : table.Selects u ↔ u ∈ table.query.map ConfigRow.user := by
  simp only [Selects,query,List.map_map,List.mem_map,List.mem_filter,Function.comp_apply]
  exact exists_congr fun row => by tauto

lemma authoritative_of_mem {row : ConfigRow} (h : row ∈ table.query) : row.authoritative = true := by
  obtain ⟨_,-,rfl⟩ := List.mem_map.mp h
  rfl

lemma wanted_of_not_selected {row : TableRow} (h : row.selected = false)
    (text : TrafficQuota.TimeText) :
    row.toConfig.wantedQuota text = none ∧ row.toConfig.wantedSpeed = (none,none) := by
  simp only [TableRow.selected,Bool.or_eq_false_iff] at h
  obtain ⟨⟨hup,hd⟩,hqu⟩ := h
  have hg : ∀ {column : Option ℤ},column.any (0 < ·) = false → column.getD 0 ≤ 0 := by
    intro column hc
    cases column with
    | none => exact le_rfl
    | some value => simpa using hc
  have hqu' : row.toConfig.quotaGB ≤ 0 := by
    cases hq : row.quotaGB with
    | none => simp [TableRow.toConfig,hq]
    | some value =>
      rw [hq] at hqu
      simpa [TableRow.toConfig,hq] using hqu
  have hs : row.toConfig.speed.noSpeed = true := by
    simp [SpeedLimiter.ConfigRow.noSpeed,ConfigRow.speed,TableRow.toConfig,hg hup,hg hd]
  exact ⟨if_pos hqu',if_pos hs⟩

lemma unselected (h : ¬ table.Selects u) (text : TrafficQuota.TimeText) :
    table.quota text u = none ∧ table.speed u = (none,none) := by
  cases hr : table.row u with
  | none => simp [quota,speed,hr]
  | some row =>
    have hn : row.name = u := by simpa using List.find?_some hr
    have hse : row.selected = false := by
      rw [← Bool.not_eq_true]
      exact fun hs => h ⟨row,List.mem_of_find?_eq_some hr,hn,hs⟩
    simpa [quota,speed,hr] using wanted_of_not_selected hse text

lemma query_names : (table.query.map ConfigRow.user).Nodup := by
  have hs : (table.query.map ConfigRow.user).Sublist (table.rows.map TableRow.name) := by
    rw [query,List.map_map]
    exact List.filter_sublist.map _
  exact hs.nodup table.names

end Table

/-- A poll in which every Apply succeeds leaves what the table says, of the users that are not
configured statically, if and only if each of them who had a quota or a speed has a row that the
query selects. -/
theorem poll_converges_iff {text : TrafficQuota.TimeText} {t : ℕ} {w w' : TrafficQuota.World}
    {zone : ℤ → ℤ} {now : ℤ} {m m' : LimiterManager} (table : Table) (static : Set String)
    (hw : TrafficQuota.Unlocked w)
    (hquota : (true,w') ∈ fetchAll (applyQuota text t) table.query w)
    (hspeed : (true,m') ∈ fetchAll (applySpeed zone now) table.query m) :
    (∀ u ∉ static, w'.userConfigs.lookup u = table.quota text u ∧
      speedOf m'.config u = table.speed u) ↔
    ∀ u ∉ static, (w.userConfigs.lookup u).isSome ∨ (m.config.getConfig u).isSome →
      table.Selects u := by
  obtain ⟨hqu,hqu'⟩ := fetchAll_sets TrafficQuota.Unlocked
    (fun w u => w.userConfigs.lookup u) (ConfigRow.wantedQuota text)
    (fun row hr s s' hs h => applyQuota_sets hs (table.authoritative_of_mem hr) h)
    table.query_names hw hquota
  obtain ⟨hsp,hs'⟩ := fetchAll_sets (fun _ => True)
    (fun m u => speedOf m.config u) ConfigRow.wantedSpeed
    (fun row hr s s' _ h => ⟨trivial,applySpeed_sets (table.authoritative_of_mem hr) h⟩)
    table.query_names trivial hspeed
  refine forall₂_congr fun u _ => ?_
  by_cases hse : table.Selects u
  · obtain ⟨row,hme,rfl,hsl⟩ := hse
    have hr := table.mem_query hme hsl
    refine iff_of_true ⟨?_,?_⟩ fun _ => ⟨row,hme,rfl,hsl⟩
    · rw [Table.quota,table.row_of_mem hme]
      exact hqu _ hr
    · rw [Table.speed,table.row_of_mem hme]
      exact hsp _ hr
  · obtain ⟨hn,hno⟩ := table.unselected hse text
    rw [hn,hno,hqu' u (table.selects_iff.not.mp hse),hs' u (table.selects_iff.not.mp hse)]
    constructor
    · rintro ⟨hquota,hspeed⟩ (h | h)
      · rw [hquota] at h
        cases h
      · rw [show m.config.getConfig u = none from congrArg Prod.fst hspeed] at h
        cases h
    · intro h
      rw [imp_iff_not hse,not_or,Option.not_isSome_iff_eq_none,Option.not_isSome_iff_eq_none] at h
      exact ⟨h.1,Prod.ext h.2 (m.config.coherent u h.2).2⟩

def aliceTable (mbps : ℤ) (quotaGB : ℚ) : Table where
  rows := [⟨"alice",some mbps,some mbps,none,some quotaGB,some "daily",none,none⟩]
  names := List.nodup_singleton _

lemma first_poll : ∃ w m,
    (true,w) ∈ fetchAll (applyQuota noTimes 0) (aliceTable 10 1).query plainWorld ∧
    (true,m) ∈ fetchAll (applySpeed id 0) (aliceTable 10 1).query (.new plainSnapshot) ∧
    w.userConfigs.lookup "alice" = some dailyGigabyte ∧
    m.config.userOverrides "alice" = some ⟨10,10,false⟩ := by
  have hqu : (fetchAll (applyQuota noTimes 0) (aliceTable 10 1).query plainWorld).any
      (fun r => r.1 && r.2.userConfigs.lookup "alice" = some dailyGigabyte) = true := by
    decide +kernel
  have hs : (fetchAll (applySpeed id 0) (aliceTable 10 1).query (.new plainSnapshot)).any
      (fun r => r.1 && r.2.config.userOverrides "alice" = some ⟨10,10,false⟩) = true := by
    decide +kernel
  obtain ⟨⟨_,w⟩,hw,hok⟩ := List.any_eq_true.mp hqu
  obtain ⟨⟨_,m⟩,hm,hok'⟩ := List.any_eq_true.mp hs
  obtain ⟨rfl,hl⟩ := by simpa using hok
  obtain ⟨rfl,ho⟩ := by simpa using hok'
  exact ⟨w,m,hw,hm,hl,ho⟩

theorem poll_converges_alice : ∃ w m,
    (true,w) ∈ fetchAll (applyQuota noTimes 0) (aliceTable 10 1).query plainWorld ∧
    (true,m) ∈ fetchAll (applySpeed id 0) (aliceTable 10 1).query (.new plainSnapshot) ∧
    ((∀ u ∉ (∅ : Set String), w.userConfigs.lookup u = (aliceTable 10 1).quota noTimes u ∧
      speedOf m.config u = (aliceTable 10 1).speed u) ↔
    ∀ u ∉ (∅ : Set String), (plainWorld.userConfigs.lookup u).isSome ∨
      ((LimiterManager.new plainSnapshot).config.getConfig u).isSome →
        (aliceTable 10 1).Selects u) := by
  obtain ⟨w,m,hw,hm,-⟩ := first_poll
  exact ⟨w,m,hw,hm,poll_converges_iff _ ∅ plainWorld_unlocked hw hm⟩

/-- Alice's row is set to zero after a poll. The next poll succeeds and changes nothing. -/
theorem zeroed_row_stays : ∃ w m,
    (true,w) ∈ fetchAll (applyQuota noTimes 0) (aliceTable 10 1).query plainWorld ∧
    (true,m) ∈ fetchAll (applySpeed id 0) (aliceTable 10 1).query (.new plainSnapshot) ∧
    fetchAll (applyQuota noTimes 0) (aliceTable 0 0).query w = [(true,w)] ∧
    fetchAll (applySpeed id 0) (aliceTable 0 0).query m = [(true,m)] ∧
    w.userConfigs.lookup "alice" = some dailyGigabyte ∧
    (aliceTable 0 0).quota noTimes "alice" = none ∧
    m.config.userOverrides "alice" = some ⟨10,10,false⟩ ∧
    (aliceTable 0 0).speed "alice" = (none,none) := by
  obtain ⟨w,m,hw,hm,hl,ho⟩ := first_poll
  have hn : (aliceTable 0 0).query = [] := rfl
  refine ⟨w,m,hw,hm,?_,?_,hl,by decide +kernel,ho,by decide +kernel⟩
  · rw [hn,fetchAll]
  · rw [hn,fetchAll]

end SingBoxAuth.DynamicConfig
