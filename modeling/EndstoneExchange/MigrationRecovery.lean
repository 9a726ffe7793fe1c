import EndstoneExchange.MigrationSteps
import EndstoneExchange.ServiceRuns

/-!
# Migrations that are started again

However often a migration stops, and wherever, it ends in the current schema: the old rows are
there, and what the migrations derive from them is complete.
-/
namespace EndstoneExchange.MigrationRecovery
open AutoIncrementTables KeyedTables DurablePrograms RecoverablePrograms ExchangeDomain SchemaMigrations MigrationSteps
open ServiceRuns (sampleSettings)

section Versions
variable {sha2 : List UInt8 → List UInt8} {start s : Store}

private theorem version1_recoverable : Recoverable (Migrating sha2 start) (Migrating sha2 start)
    (Program.forEach execute version1) fun _ s => Migrating sha2 start s ∧ Recorded 1 s := by
  have hbegin : Recoverable (Migrating sha2 start) (At sha2 start (fun _ => True) []) (Program.forEach execute version1)
      fun _ s => Migrating sha2 start s ∧ Recorded 1 s := by
    refine .cons (createTable_recoverable (fun _ h => h) (by decide)) ?_
    refine .cons (createTable_recoverable (fun _ h => h) (by decide)) ?_
    refine .cons (createTable_recoverable (fun _ h => h) (by decide)) ?_
    refine .cons (createTable_recoverable (fun _ h => h) (by decide)) ?_
    refine .cons (createTable_recoverable (fun _ h => h) (by decide)) ?_
    refine .cons (createTable_recoverable (fun _ h => h) (by decide)) ?_
    refine .cons (S := At sha2 start (Recorded 1) _) (rows_recoverable (by decide) (fun _ _ => trivial) fun s hs => ?_)
      (.nil fun s hs => ⟨hs.migrating, hs.fact⟩)
    refine ⟨_, rfl, rfl, ?_, fun k hk => ?_⟩
    · by_cases hin : 1 ∈ s.versions
      · rw [Finset.insert_eq_of_mem hin]
        exact hs.migrating
      · exact hs.migrating.record (by decide) hin (fun k hk => by simp at hk)
          ⟨fun o ho => hs.present o ((by decide : ∀ o ∈ added 1, o ∈ _) o ho), by simp, by simp, by simp⟩
    · rw [Finset.mem_Icc] at hk
      exact Finset.mem_insert.mpr (.inl (by omega))
  exact hbegin.conseq (fun s hs => ⟨hs, trivial, fun _ ho => absurd ho List.not_mem_nil⟩) fun _ _ h => h

private theorem version2_recoverable : Recoverable (Migrating sha2 start) (At sha2 start (Next 1) (upTo 1)) version2
    fun _ s => Migrating sha2 start s ∧ Next 1 s ∧ Complete start 2 s := by
  refine .bind (createTable_recoverable (fun _ h => h) (by decide)) fun _ => ?_
  refine .bind (R := fun _ => At sha2 start (fun s => Next 1 s ∧ Bound start s) _)
    (rows_recoverable (by decide) (fun _ h => h.1) fun s hs => ?_) fun _ => ?_
  · obtain ⟨s', hrows, hobjects, hversions, hmigrating, hbound⟩ := hs.migrating.bindActiveMarkets hs.fact.2
    exact ⟨s', hrows, hobjects, hmigrating, hs.fact.congr hversions, hbound⟩
  refine .bind (dropObject_recoverable (fun _ h => h) (by decide)) fun _ => ?_
  refine (addObject_recoverable (fun s h => ⟨h.1, fun hin => h.2 ((mem_insert_ne (by decide)).mp hin)⟩) (by decide)
    (by decide) fun _ _ => rfl).conseq (fun _ h => h) fun _ s hs => ?_
  exact ⟨hs.migrating, hs.fact.1.1, fun o ho => hs.present o ((by decide : ∀ o ∈ added 2, o ∈ _) o ho),
    fun _ => hs.fact.2, fun _ => hs.fact.1.2, by simp⟩

private theorem version3_recoverable : Recoverable (Migrating sha2 start) (At sha2 start (Next 2) (upTo 2)) version3
    fun _ s => Migrating sha2 start s ∧ Next 2 s ∧ Complete start 3 s := by
  refine .bind (column_recoverable (fun s _ => Iff.rfl) (by decide) fun s hs hout =>
    ⟨_, rfl, rfl, hs.migrating.addReservedQty hout, hs.fact⟩) fun _ => ?_
  refine .bind (addObject_recoverable (fun _ h => h) (by decide) (by decide) fun s hs =>
    if_pos hs.migrating.deliveries.fit) fun _ => ?_
  exact .conseq (createTable_recoverable (fun _ h => h) (by decide)) (fun _ h => h)
    fun _ s hs => hs.complete (by decide) (by decide)

private theorem version4_recoverable : Recoverable (Migrating sha2 start) (At sha2 start (Next 3) (upTo 3)) version4
    fun _ s => Migrating sha2 start s ∧ Next 3 s ∧ Complete start 4 s :=
  .conseq (createTable_recoverable (fun _ h => h) (by decide)) (fun _ h => h)
    fun _ s hs => hs.complete (by decide) (by decide)

private theorem version5_recoverable : Recoverable (Migrating sha2 start) (At sha2 start (Next 4) (upTo 4)) version5
    fun _ s => Migrating sha2 start s ∧ Next 4 s ∧ Complete start 5 s := by
  refine .bind (createTable_recoverable (fun _ h => h) (by decide)) fun _ => ?_
  refine (rows_recoverable (D := fun s => Next 4 s ∧ Opened start s) (by decide) (fun _ h => h.1)
    fun s hs => ?_).conseq (fun _ h => h) fun _ s hs => ?_
  · obtain ⟨hmigrating, hopened⟩ := hs.migrating.recordOpeningBalances hs.fact.2
    exact ⟨_, rfl, rfl, hmigrating, hs.fact, hopened⟩
  · exact ⟨hs.migrating, hs.fact.1, fun o ho => hs.present o ((by decide : ∀ o ∈ added 5, o ∈ _) o ho), by simp, by simp,
      fun _ => hs.fact.2⟩

private theorem version6_recoverable : Recoverable (Migrating sha2 start) (At sha2 start (Next 5) (upTo 5)) version6
    fun _ s => Migrating sha2 start s ∧ Next 5 s ∧ Complete start 6 s :=
  .conseq (column_recoverable (fun s _ => Iff.rfl) (by decide) fun s hs hout =>
    ⟨_, rfl, rfl, hs.migrating.addReopenable hout, hs.fact⟩) (fun _ h => h)
    fun _ s hs => hs.complete (by decide) (by decide)

private theorem version7_recoverable : Recoverable (Migrating sha2 start)
    (At sha2 start (Next 6) (upTo 6)) (version7 sha2)
    fun _ s => Migrating sha2 start s ∧ Next 6 s ∧ Complete start 7 s := by
  refine .bind (createTable_recoverable (fun _ h => h) (by decide)) fun _ => ?_
  refine .bind (R := fun _ => At sha2 start (fun s => Next 6 s ∧ Covered sha2 s) _)
    (rows_recoverable (by decide) (fun _ h => h.1) fun s hs => ?_) fun _ => ?_
  · obtain ⟨hmigrating, hcovered⟩ := hs.migrating.insertBooks
    exact ⟨_, rfl, rfl, hmigrating, hs.fact, hcovered⟩
  refine .bind (column_recoverable (fun s _ => Iff.rfl) (by decide) fun s hs hout =>
    ⟨_, rfl, rfl, hs.migrating.addBookId hout, hs.fact.1, ?_⟩) fun _ => ?_
  · rintro _ hmem
    obtain ⟨m, hm, rfl⟩ := List.mem_map.mp hmem
    exact hs.fact.2 m hm
  refine .bind (R := fun _ => At sha2 start (fun s => (Next 6 s ∧ Covered sha2 s) ∧ Assigned s) _)
    (rows_recoverable (by decide) (fun _ h => h.1) fun s hs => ?_) fun _ => ?_
  · obtain ⟨hmigrating, hassigned⟩ := hs.migrating.assignBooks hs.fact.2 (hs.present _ List.mem_cons_self)
    refine ⟨_, rfl, rfl, hmigrating, ⟨hs.fact.1, ?_⟩, hassigned⟩
    rintro _ hmem
    obtain ⟨m, hm, rfl⟩ := List.mem_map.mp hmem
    split_ifs <;> exact hs.fact.2 m hm
  refine query_ite (fun s hs => hs.migrating) (.absurd fun s hs => ?_) ?_
  · obtain ⟨m, hm, hnone⟩ := List.any_eq_true.mp hs.2
    exact hs.1.fact.2 m hm (of_decide_eq_true hnone)
  refine Recoverable.conseq (S := At sha2 start (fun s => (Next 6 s ∧ Covered sha2 s) ∧ Assigned s) _) ?_
    (fun _ h => h.1) fun _ _ h => h
  refine .bind (column_recoverable (fun s hs => and_iff_right (hs.present _ List.mem_cons_self)) (by decide)
    fun s hs _ => ⟨s, if_neg ?_, rfl, hs.migrating.requireBookIds hs.fact.2, hs.fact⟩) fun _ => ?_
  · intro hany
    obtain ⟨m, hm, hnone⟩ := List.any_eq_true.mp hany
    exact hs.fact.2 m hm (of_decide_eq_true hnone)
  refine .bind (addObject_recoverable (fun _ h => h) (by decide) (by decide) fun _ _ => rfl) fun _ => ?_
  refine (addObject_recoverable (fun _ h => h) (by decide) (by decide) fun s hs => if_pos ?_).conseq (fun _ h => h)
    fun _ s hs => ?_
  · rw [List.all_eq_true]
    intro m hm
    rw [Option.all_eq_true]
    intro id hid
    obtain ⟨b, hb, -⟩ := hs.migrating.books.assigned m hm id hid
    rw [hb]
    rfl
  · exact ⟨hs.migrating, hs.fact.1.1, fun o ho => hs.present o ((by decide : ∀ o ∈ added 7, o ∈ _) o ho), by simp,
      by simp, by simp⟩

private theorem version8_recoverable : Recoverable (Migrating sha2 start) (At sha2 start (Next 7) (upTo 7)) version8
    fun _ s => Migrating sha2 start s ∧ Next 7 s ∧ Complete start 8 s :=
  .conseq (createTable_recoverable (fun _ h => h) (by decide)) (fun _ h => h)
    fun _ s hs => hs.complete (by decide) (by decide)

private theorem version9_recoverable : Recoverable (Migrating sha2 start) (At sha2 start (Next 8) (upTo 8)) version9
    fun _ s => Migrating sha2 start s ∧ Next 8 s ∧ Complete start 9 s := by
  refine .bind (createTable_recoverable (fun _ h => h) (by decide)) fun _ => ?_
  exact .conseq (createTable_recoverable (fun _ h => h) (by decide)) (fun _ h => h)
    fun _ s hs => hs.complete (by decide) (by decide)

private theorem version10_recoverable : Recoverable (Migrating sha2 start) (At sha2 start (Next 9) (upTo 9)) version10
    fun _ s => Migrating sha2 start s ∧ Next 9 s ∧ Complete start 10 s :=
  .conseq (addObject_recoverable (fun _ h => h) (by decide) (by decide) fun _ _ => rfl) (fun _ h => h)
    fun _ s hs => hs.complete (by decide) (by decide)

theorem migrate_recoverable : Recoverable (Migrating sha2 start) (Migrating sha2 start) (migrate sha2)
    fun _ s => Migrating sha2 start s ∧ Recorded 10 s := by
  refine version1_recoverable.bind fun _ => ?_
  refine (migration_recoverable (by decide) (by decide) version2_recoverable).bind fun _ => ?_
  refine (migration_recoverable (by decide) (by decide) version3_recoverable).bind fun _ => ?_
  refine (migration_recoverable (by decide) (by decide) version4_recoverable).bind fun _ => ?_
  refine (migration_recoverable (by decide) (by decide) version5_recoverable).bind fun _ => ?_
  refine (migration_recoverable (by decide) (by decide) version6_recoverable).bind fun _ => ?_
  refine (migration_recoverable (by decide) (by decide) version7_recoverable).bind fun _ => ?_
  refine (migration_recoverable (by decide) (by decide) version8_recoverable).bind fun _ => ?_
  refine (migration_recoverable (by decide) (by decide) version9_recoverable).bind fun _ => ?_
  exact migration_recoverable (by decide) (by decide) version10_recoverable

end Versions

section Upgrade
variable {sha2 : List UInt8 → List UInt8} {start s t : Store}

theorem execute_settled {f : Store → Except Error Store} (h : f t = .ok t) :
    Recoverable (· = t) (· = t) (execute f) fun _ s => s = t :=
  execute_twice (fun _ hs => hs) (fun _ hs => hs) fun _ hs => ⟨t, hs ▸ h, rfl⟩

theorem migration_settled {k : ℕ} {body : Program Store Error PUnit} (hk : k ∈ t.versions) :
    Recoverable (· = t) (· = t) (migration k body) fun _ s => s = t := by
  refine query_ite (fun _ hs => hs) (.pure fun _ hs => hs.1) (.absurd fun s hs => ?_)
  exact of_decide_eq_false hs.2 (hs.1 ▸ hk)

/-- A migrated database stays as it is. -/
theorem migrate_settled (h : Upgraded sha2 start t) : Recoverable (· = t) (· = t) (migrate sha2) fun _ s => s = t := by
  have hin : ∀ k, 1 ≤ k → k ≤ 10 → k ∈ t.versions := fun k hpos hk => h.versions ▸ Finset.mem_Icc.mpr ⟨hpos, hk⟩
  have hthere : ∀ o, o ≠ .marketsTargetKey → o ∈ t.objects := fun o ho => (h.objects o).mpr ho
  have hone : recordFirstVersion t = .ok t := by
    refine (if_pos fun o ho => List.mem_singleton.mp ho ▸ hthere _ (by decide)).trans ?_
    rw [Finset.insert_eq_of_mem (hin 1 (by decide) (by decide))]
  have hfirst : Recoverable (· = t) (· = t) (Program.forEach execute version1) fun _ s => s = t := by
    refine .cons (execute_settled (if_pos (hthere _ (by decide)))) ?_
    refine .cons (execute_settled (if_pos (hthere _ (by decide)))) ?_
    refine .cons (execute_settled (if_pos (hthere _ (by decide)))) ?_
    refine .cons (execute_settled (if_pos (hthere _ (by decide)))) ?_
    refine .cons (execute_settled (if_pos (hthere _ (by decide)))) ?_
    refine .cons (execute_settled (if_pos (hthere _ (by decide)))) ?_
    exact .cons (execute_settled hone) (.nil fun _ hs => hs)
  refine hfirst.bind fun _ => ?_
  refine (migration_settled (hin 2 (by decide) (by decide))).bind fun _ => ?_
  refine (migration_settled (hin 3 (by decide) (by decide))).bind fun _ => ?_
  refine (migration_settled (hin 4 (by decide) (by decide))).bind fun _ => ?_
  refine (migration_settled (hin 5 (by decide) (by decide))).bind fun _ => ?_
  refine (migration_settled (hin 6 (by decide) (by decide))).bind fun _ => ?_
  refine (migration_settled (hin 7 (by decide) (by decide))).bind fun _ => ?_
  refine (migration_settled (hin 8 (by decide) (by decide))).bind fun _ => ?_
  refine (migration_settled (hin 9 (by decide) (by decide))).bind fun _ => ?_
  exact migration_settled (hin 10 (by decide) (by decide))

/-- However many runs were cut short, no row is lost, a run without a fault ends the migration,
and a run that returns leaves the current schema, which no later run changes. -/
theorem migrate_recovers (hstart : Sound sha2 start) (hruns : Attempts (migrate sha2) start s) :
    Preserved start s ∧ (∃ t, migrate sha2 [] s = (.returned ⟨⟩, [], t)) ∧
      ∀ fs gs t, migrate sha2 fs s = (.returned ⟨⟩, gs, t) →
        Preserved start t ∧ Upgraded sha2 start t ∧ ∀ t', Attempts (migrate sha2) t t' → t' = t := by
  have hkept := migrate_recoverable.kept (fun _ _ h => h.1) hruns hstart.migrating
  obtain ⟨hreturns, ⟨⟨⟩, t, hrun, -⟩⟩ := migrate_recoverable.recovers (fun _ _ h => h.1) hruns hstart.migrating
  refine ⟨hkept.preserved, ⟨t, hrun⟩, fun fs gs t hrun => ?_⟩
  obtain ⟨hmigrating, hall⟩ := hreturns fs ⟨⟩ gs t hrun
  have hupgraded := hmigrating.upgraded hall
  exact ⟨hmigrating.preserved, hupgraded, fun t' hlater => (migrate_settled hupgraded).kept (fun _ _ h => h) hlater rfl⟩

/-- A database of the first release. -/
def firstRelease : Store where
  objects := {.schemaVersions, .accounts, .markets, .orders, .trades, .deliveries, .marketsTargetKey}
  versions := {1}
  accounts := ⟨[("alice", 500), ("bob", 0)], by decide⟩
  markets := ⟨[⟨"block:overworld:0:64:0", { type := "minecraft:diamond", name := "Diamond" }, true, none, none⟩,
    ⟨"block:overworld:4:64:0", { type := "minecraft:diamond", name := "Diamond" }, false, none, none⟩]⟩
  deliveries := ⟨[⟨5, 2, none⟩]⟩

private theorem firstRelease_sound : Sound sha2 firstRelease where
  versions := ⟨⟨1, by decide, by decide⟩, by decide, by decide⟩
  distinct := by decide
  pointing := by decide
  claims := by simp [firstRelease, ClaimsFit]
  reservedQty := by decide
  opened := fun _ _ _ => .inl rfl
  reopenable := by decide
  noBookId := by decide
  notNull := by decide
  unique := List.nodup_nil
  assigned := by simp [firstRelease]

theorem migrate_recovers_firstRelease :
    let s := (migrate sampleSettings.sha2 (List.replicate 30 .proceed ++ [.failAfter, .crash]) firstRelease).2.2
    Preserved firstRelease s ∧ (∃ t, migrate sampleSettings.sha2 [] s = (.returned ⟨⟩, [], t)) ∧
      ∀ fs gs t, migrate sampleSettings.sha2 fs s = (.returned ⟨⟩, gs, t) → Preserved firstRelease t ∧
        Upgraded sampleSettings.sha2 firstRelease t ∧ ∀ t', Attempts (migrate sampleSettings.sha2) t t' → t' = t :=
  migrate_recovers firstRelease_sound (.single ⟨_, rfl⟩)

end Upgrade

end EndstoneExchange.MigrationRecovery
