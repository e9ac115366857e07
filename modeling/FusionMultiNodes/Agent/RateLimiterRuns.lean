import FusionMultiNodes.Agent.RateLimiter
import FusionMultiNodes.Lib.Decimal
import Mathlib.Tactic.NormNum
import Mathlib.Data.List.Pairwise

/-! Runs of the rate limiter: what a clean-up may forget, and that the limit holds in every
window until one forgets a key with requests in its window. -/
namespace FusionMultiNodes

namespace InMemoryRateLimiter

variable {l l' l'' : InMemoryRateLimiter} {key : String} {now : ℚ}

def Sorted (l : InMemoryRateLimiter) : Prop := ∀ k, (l.timestamps k).Pairwise (· ≤ ·)

/-- `l'` has the settings of `l` and lists no others than its timestamps: all those of a key
or none. -/
structure Forgets (l l' : InMemoryRateLimiter) : Prop where
  max_eq : l'.max = l.max
  window_eq : l'.window = l.window
  timestamps : ∀ k, l'.timestamps k = l.timestamps k ∨ l'.timestamps k = []

def Remembers (now : ℚ) (l l' : InMemoryRateLimiter) : Prop :=
  ∀ k later, now ≤ later →
    recent l.window later (l'.timestamps k) = recent l.window later (l.timestamps k)

/-- The keys with a timestamp in the window that ends now. -/
def keysInWindow (l : InMemoryRateLimiter) (now : ℚ) : List String :=
  l.counts.keys.filter fun k => decide (recent l.window now (l.timestamps k) ≠ [])

theorem Forgets.refl (l : InMemoryRateLimiter) : Forgets l l := ⟨rfl,rfl,fun _ => Or.inl rfl⟩

theorem Forgets.trans (h : Forgets l l') (h' : Forgets l' l'') : Forgets l l'' := by
  refine ⟨h'.max_eq.trans h.max_eq,h'.window_eq.trans h.window_eq,fun k => ?_⟩
  rcases h'.timestamps k with heq | hnil
  · rw [heq]
    exact h.timestamps k
  · exact Or.inr hnil

theorem Forgets.sorted (h : Forgets l l') (hl : l.Sorted) : l'.Sorted := by
  intro k
  rcases h.timestamps k with heq | hnil
  · rw [heq]
    exact hl k
  · rw [hnil]
    exact List.Pairwise.nil

theorem Forgets.subset (h : Forgets l l') (k : String) : l'.timestamps k ⊆ l.timestamps k := by
  rcases h.timestamps k with heq | hnil
  · rw [heq]
    exact List.Subset.refl _
  · rw [hnil]
    exact List.nil_subset _

theorem mem_keys_of_timestamps {k : String} (h : l.timestamps k ≠ []) : k ∈ l.counts.keys := by
  by_contra hk
  rw [timestamps,Dict.get?_eq_none_iff.mpr hk] at h
  exact h rfl

theorem nodup_keysInWindow (l : InMemoryRateLimiter) (now : ℚ) : (l.keysInWindow now).Nodup :=
  l.counts.nodup.filter _

theorem mem_keysInWindow {k : String} :
    k ∈ l.keysInWindow now ↔ recent l.window now (l.timestamps k) ≠ [] := by
  rw [keysInWindow,List.mem_filter,decide_eq_true_eq,and_iff_right_iff_imp]
  intro h
  apply mem_keys_of_timestamps
  intro hnil
  exact h (by rw [hnil,recent_nil])

theorem not_isStale_of_recent {v : List ℚ} {w : ℚ} (hv : v.Pairwise (· ≤ ·))
    (h : recent w now v ≠ []) : isStale (now - w) v = false := by
  obtain ⟨t,ht⟩ := List.exists_mem_of_ne_nil _ h
  obtain ⟨hmem,hlt⟩ := mem_recent.mp ht
  have hne : v ≠ [] := List.ne_nil_of_mem hmem
  have hlast : t ≤ v.getLast hne := hv.rel_getLast hmem
  rw [isStale,List.getLast?_eq_some_getLast hne]
  simpa using le_of_lt (lt_of_lt_of_le hlt hlast)

def liveCounts (l : InMemoryRateLimiter) (now : ℚ) : Dict String (List ℚ) :=
  ((l.counts.entries.filter fun p => isStale (now - l.window) p.2).map Prod.fst).foldl
    Dict.erase l.counts

theorem cleanupStale_eq (l : InMemoryRateLimiter) (now : ℚ) : l.cleanupStale now =
    { l with counts := if maxIpEntries < (l.liveCounts now).entries.length then
        (excessKeys (l.liveCounts now)).foldl Dict.erase (l.liveCounts now)
      else l.liveCounts now } := by
  rw [cleanupStale,liveCounts]
  split_ifs <;> rfl

theorem liveCounts_get? (l : InMemoryRateLimiter) (now : ℚ) (k : String) :
    (l.liveCounts now).get? k =
      (l.counts.get? k).filter fun v => !isStale (now - l.window) v := by
  rw [liveCounts,Dict.get?_foldl_erase]
  cases hget : l.counts.get? k with
  | none => simp
  | some v =>
    have hmem : k ∈ (l.counts.entries.filter fun p => isStale (now - l.window) p.2).map Prod.fst ↔
        isStale (now - l.window) v = true := by
      constructor
      · intro hk
        obtain ⟨p,hp,rfl⟩ := List.mem_map.mp hk
        obtain ⟨hentry,hstale⟩ := List.mem_filter.mp hp
        rw [Dict.get?_eq_some_iff.mpr hentry,Option.some.injEq] at hget
        exact hget ▸ hstale
      · intro hstale
        have hentry := Dict.get?_eq_some_iff.mp hget
        exact List.mem_map.mpr ⟨(k,v),List.mem_filter.mpr ⟨hentry,hstale⟩,rfl⟩
    by_cases hstale : isStale (now - l.window) v = true
    · simp [hmem.mpr hstale,hstale,Option.filter_some]
    · rw [if_neg (mt hmem.mp hstale)]
      simp [hstale,Option.filter_some]

/-- The keys within the bound of the table, those used last. -/
def keptKeys (counts : Dict String (List ℚ)) : List String :=
  (counts.keys.mergeSort fun a b => decide (lastOf counts a ≤ lastOf counts b)).drop
    (counts.entries.length - maxIpEntries)

theorem excess_append_kept (counts : Dict String (List ℚ)) :
    (excessKeys counts ++ keptKeys counts).Perm counts.keys := by
  rw [excessKeys,keptKeys,List.take_append_drop]
  exact List.mergeSort_perm ..

theorem nodup_excess_append_kept (counts : Dict String (List ℚ)) :
    (excessKeys counts ++ keptKeys counts).Nodup :=
  (excess_append_kept counts).nodup_iff.mpr counts.nodup

theorem length_keptKeys {counts : Dict String (List ℚ)}
    (hfull : maxIpEntries < counts.entries.length) : (keptKeys counts).length = maxIpEntries := by
  rw [keptKeys,List.length_drop,List.length_mergeSort,Dict.length_keys]
  omega

theorem lastOf_le_of_excess {counts : Dict String (List ℚ)} {k k' : String}
    (hk : k ∈ excessKeys counts) (hk' : k' ∈ keptKeys counts) :
    lastOf counts k ≤ lastOf counts k' := by
  have horder : (excessKeys counts ++ keptKeys counts).Pairwise fun a b =>
      decide (lastOf counts a ≤ lastOf counts b) = true := by
    rw [excessKeys,keptKeys,List.take_append_drop]
    apply List.pairwise_mergeSort
    · intro a b c hab hbc
      simp only [decide_eq_true_eq] at hab hbc ⊢
      exact hab.trans hbc
    · intro a b
      simpa using le_total _ _
  exact of_decide_eq_true ((List.pairwise_append.mp horder).2.2 k hk k' hk')

theorem liveCounts_timestamps (l : InMemoryRateLimiter) (now : ℚ) (k : String) :
    ((l.liveCounts now).get? k).getD [] = l.timestamps k ∨ (l.liveCounts now).get? k = none := by
  rw [liveCounts_get?,timestamps]
  cases l.counts.get? k with
  | none => exact Or.inr rfl
  | some v => by_cases hv : isStale (now - l.window) v = true <;> simp [hv,Option.filter_some]

theorem cleanupStale_forgets (l : InMemoryRateLimiter) (now : ℚ) :
    Forgets l (l.cleanupStale now) := by
  rw [cleanupStale_eq]
  refine ⟨rfl,rfl,fun k => ?_⟩
  have hlive : ((l.liveCounts now).get? k).getD [] = l.timestamps k ∨
      ((l.liveCounts now).get? k).getD [] = [] :=
    (liveCounts_timestamps l now k).imp_right fun hnone => by rw [hnone]; rfl
  rw [timestamps]
  split_ifs with hfull
  · rw [Dict.get?_foldl_erase]
    split_ifs with hk
    · exact Or.inr rfl
    · exact hlive
  · exact hlive

theorem length_cleanupStale (l : InMemoryRateLimiter) (now : ℚ) :
    (l.cleanupStale now).counts.keys.length ≤ maxIpEntries := by
  rw [cleanupStale_eq]
  split_ifs with hfull
  · have hsub : ((excessKeys (l.liveCounts now)).foldl Dict.erase (l.liveCounts now)).keys ⊆
        keptKeys (l.liveCounts now) := by
      intro k hk
      rw [Dict.keys_foldl_erase,List.mem_filter,decide_eq_true_eq] at hk
      have hmem := (excess_append_kept (l.liveCounts now)).mem_iff.mpr hk.1
      exact (List.mem_append.mp hmem).resolve_left hk.2
    rw [← length_keptKeys hfull]
    exact (List.subperm_of_subset (Dict.nodup _) hsub).length_le
  · rw [Dict.length_keys]
    exact Nat.le_of_not_lt hfull

theorem lastOf_eq {counts : Dict String (List ℚ)} {k : String} {v : List ℚ} {t : ℚ}
    (hv : counts.get? k = some v) (ht : v.getLast? = some t) : lastOf counts k = t := by
  rw [lastOf,hv,Option.bind_some,ht,Option.getD_some]

theorem liveCounts_of_recent (hl : l.Sorted) {k : String}
    (h : recent l.window now (l.timestamps k) ≠ []) :
    (l.liveCounts now).get? k = l.counts.get? k := by
  rw [liveCounts_get?]
  have hstale := not_isStale_of_recent (hl k) h
  rw [timestamps] at hstale
  cases hget : l.counts.get? k with
  | none => rfl
  | some v =>
    rw [hget,Option.getD_some] at hstale
    rw [Option.filter_some,hstale]
    rfl

theorem lt_lastOf_of_recent (hl : l.Sorted) {k : String}
    (h : recent l.window now (l.timestamps k) ≠ []) :
    now - l.window < lastOf (l.liveCounts now) k := by
  obtain ⟨t,ht⟩ := List.exists_mem_of_ne_nil _ h
  obtain ⟨hmem,hlt⟩ := mem_recent.mp ht
  have hne : l.timestamps k ≠ [] := List.ne_nil_of_mem hmem
  cases hget : l.counts.get? k with
  | none => exact absurd (by rw [timestamps,hget]; rfl) hne
  | some v =>
    have hv : l.timestamps k = v := by rw [timestamps,hget]; rfl
    rw [hv] at hmem hne
    rw [lastOf_eq ((liveCounts_of_recent hl h).trans hget) (List.getLast?_eq_some_getLast hne)]
    exact lt_of_lt_of_le hlt ((hv ▸ hl k).rel_getLast hmem)

/-- A key that is not stale and was last used in the window has a timestamp there. -/
theorem recent_of_lt_lastOf {k : String} (hk : k ∈ (l.liveCounts now).keys)
    (h : now - l.window < lastOf (l.liveCounts now) k) :
    recent l.window now (l.timestamps k) ≠ [] := by
  obtain ⟨v,hv⟩ := Dict.mem_keys_iff.mp hk
  rw [liveCounts_get?,Option.filter_eq_some_iff] at hv
  cases hlast : v.getLast? with
  | none => simp [isStale,hlast] at hv
  | some t =>
    have hget : (l.liveCounts now).get? k = some v := by
      rw [liveCounts_get?,Option.filter_eq_some_iff]
      exact hv
    rw [lastOf_eq hget hlast] at h
    apply List.ne_nil_of_mem (a := t)
    rw [mem_recent,timestamps,hv.1,Option.getD_some]
    exact ⟨List.mem_of_getLast? hlast,h⟩

/-- Only what is used least recently goes beyond the bound: while the keys with a timestamp in
the window fit, none of them does. -/
theorem not_excess_of_recent (hl : l.Sorted)
    (hroom : (l.keysInWindow now).length ≤ maxIpEntries)
    (hfull : maxIpEntries < (l.liveCounts now).entries.length) {k : String}
    (h : recent l.window now (l.timestamps k) ≠ []) : k ∉ excessKeys (l.liveCounts now) := by
  intro hk
  have hparts := List.nodup_append.mp (nodup_excess_append_kept (l.liveCounts now))
  have hnodup : (k::keptKeys (l.liveCounts now)).Nodup :=
    List.nodup_cons.mpr ⟨fun hkept => hparts.2.2 k hk k hkept rfl,hparts.2.1⟩
  have hsub : k::keptKeys (l.liveCounts now) ⊆ l.keysInWindow now := by
    intro k' hk'
    rw [mem_keysInWindow]
    rcases List.mem_cons.mp hk' with rfl | hkept
    · exact h
    · apply recent_of_lt_lastOf
      · exact (excess_append_kept _).mem_iff.mp (List.mem_append_right _ hkept)
      · exact lt_of_lt_of_le (lt_lastOf_of_recent hl h) (lastOf_le_of_excess hk hkept)
  have hlen := (List.subperm_of_subset hnodup hsub).length_le
  rw [List.length_cons,length_keptKeys hfull] at hlen
  omega

/-- A clean-up loses nothing that is in a window, if the table has room for the keys that
have something in theirs. -/
theorem cleanupStale_remembers (hl : l.Sorted)
    (hroom : (l.keysInWindow now).length ≤ maxIpEntries) : Remembers now l (l.cleanupStale now) := by
  intro k later hlater
  by_cases hk : recent l.window now (l.timestamps k) = []
  · rw [recent_eq_nil_of_le hlater hk]
    rcases (cleanupStale_forgets l now).timestamps k with heq | hnil
    · rw [heq,recent_eq_nil_of_le hlater hk]
    · rw [hnil,recent_nil]
  · have hget : (l.cleanupStale now).counts.get? k = l.counts.get? k := by
      rw [cleanupStale_eq,← liveCounts_of_recent hl hk]
      by_cases hfull : maxIpEntries < (l.liveCounts now).entries.length
      · simp only [if_pos hfull]
        rw [Dict.get?_foldl_erase,if_neg (not_excess_of_recent hl hroom hfull hk)]
      · simp only [if_neg hfull]
    rw [timestamps,hget,timestamps]

theorem Remembers.keysInWindow_subset (h : Remembers now l l') (hw : l'.window = l.window) :
    l'.keysInWindow now ⊆ l.keysInWindow now := by
  intro k hk
  rw [mem_keysInWindow] at hk ⊢
  rwa [hw,h k now le_rfl] at hk

theorem Remembers.trans (hw : l'.window = l.window) (h : Remembers now l l')
    (h' : Remembers now l' l'') : Remembers now l l'' := by
  intro k later hlater
  rw [← h k later hlater,← hw]
  exact h' k later hlater

def pruned (l : InMemoryRateLimiter) (key : String) (now : ℚ) : InMemoryRateLimiter :=
  { l with counts := l.counts.set key (recent l.window now (l.timestamps key)) }

/-- The table after a granted call, before any clean-up. -/
def recorded (l : InMemoryRateLimiter) (key : String) (now : ℚ) : InMemoryRateLimiter :=
  { l with
    counts := (l.counts.set key (recent l.window now (l.timestamps key))).set key
      (recent l.window now (l.timestamps key) ++ [now])
    callCount := l.callCount + 1 }

def countedCleanup (l : InMemoryRateLimiter) (now : ℚ) : InMemoryRateLimiter :=
  if l.callCount % cleanupInterval = 0 then l.cleanupStale now else l

def timedCleanup (l : InMemoryRateLimiter) (now : ℚ) : InMemoryRateLimiter :=
  if timeCleanupInterval ≤ now - l.lastTimeCleanup then
    { l.cleanupStale now with lastTimeCleanup := now } else l

theorem isAllowed_of_le (h : l.max ≤ ((recent l.window now (l.timestamps key)).length : ℤ)) :
    l.isAllowed key now = (false,l.pruned key now) :=
  if_pos h

theorem isAllowed_of_lt (h : ((recent l.window now (l.timestamps key)).length : ℤ) < l.max) :
    l.isAllowed key now =
      (true,((l.recorded key now).countedCleanup now).timedCleanup now) :=
  if_neg (not_le.mpr h)

theorem countedCleanup_lastTimeCleanup (l : InMemoryRateLimiter) (now : ℚ) :
    (l.countedCleanup now).lastTimeCleanup = l.lastTimeCleanup := by
  rw [countedCleanup]
  split_ifs
  · rw [cleanupStale_eq]
  · rfl

theorem timestamps_set (counts : Dict String (List ℚ)) (v : List ℚ) (k : String) :
    ((counts.set key v).get? k).getD [] = if k = key then v else (counts.get? k).getD [] := by
  rw [Dict.get?_set]
  split_ifs <;> rfl

theorem pruned_timestamps (l : InMemoryRateLimiter) (key : String) (now : ℚ) (k : String) :
    (l.pruned key now).timestamps k =
      if k = key then recent l.window now (l.timestamps key) else l.timestamps k := by
  rw [timestamps,pruned,timestamps_set]
  rfl

theorem recorded_timestamps (l : InMemoryRateLimiter) (key : String) (now : ℚ) (k : String) :
    (l.recorded key now).timestamps k =
      if k = key then recent l.window now (l.timestamps key) ++ [now] else l.timestamps k := by
  rw [timestamps,recorded,timestamps_set,timestamps_set]
  split_ifs <;> rfl

theorem countedCleanup_forgets (l : InMemoryRateLimiter) (now : ℚ) :
    Forgets l (l.countedCleanup now) := by
  rw [countedCleanup]
  split_ifs
  · exact cleanupStale_forgets l now
  · exact Forgets.refl l

theorem timedCleanup_forgets (l : InMemoryRateLimiter) (now : ℚ) :
    Forgets l (l.timedCleanup now) := by
  rw [timedCleanup]
  split_ifs
  · have h := cleanupStale_forgets l now
    exact ⟨h.max_eq,h.window_eq,h.timestamps⟩
  · exact Forgets.refl l

theorem cleanups_forget (l : InMemoryRateLimiter) (now : ℚ) :
    Forgets l ((l.countedCleanup now).timedCleanup now) :=
  (countedCleanup_forgets l now).trans (timedCleanup_forgets _ now)

/-- With room for the keys in the window, the clean-ups of a call lose nothing of them. -/
theorem cleanups_remember (hl : l.Sorted) (hroom : (l.keysInWindow now).length ≤ maxIpEntries) :
    Remembers now l ((l.countedCleanup now).timedCleanup now) := by
  have hcounted : Remembers now l (l.countedCleanup now) := by
    rw [countedCleanup]
    split_ifs
    · exact cleanupStale_remembers hl hroom
    · exact fun _ _ _ => rfl
  have hforgets := countedCleanup_forgets l now
  apply hcounted.trans hforgets.window_eq
  have hsub := hcounted.keysInWindow_subset hforgets.window_eq
  have hlen := (List.subperm_of_subset (nodup_keysInWindow _ now) hsub).length_le
  rw [timedCleanup]
  split_ifs
  · exact cleanupStale_remembers (hforgets.sorted hl) (hlen.trans hroom)
  · exact fun _ _ _ => rfl

theorem keysInWindow_recorded_subset (l : InMemoryRateLimiter) (key : String) (now : ℚ) :
    (l.recorded key now).keysInWindow now ⊆ key::l.othersInWindow key now := by
  intro k hk
  rw [mem_keysInWindow,recorded_timestamps] at hk
  rw [List.mem_cons]
  by_cases hkey : k = key
  · exact Or.inl hkey
  · rw [if_neg hkey] at hk
    right
    rw [othersInWindow,List.mem_filter,decide_eq_true_eq]
    exact ⟨(List.mem_filter.mp (mem_keysInWindow.mpr hk)).1,hkey,hk⟩

theorem length_keysInWindow_recorded (l : InMemoryRateLimiter) (key : String) (now : ℚ) :
    ((l.recorded key now).keysInWindow now).length ≤ (l.othersInWindow key now).length + 1 :=
  (List.subperm_of_subset (nodup_keysInWindow _ now)
    (keysInWindow_recorded_subset l key now)).length_le

theorem recorded_sorted (hl : l.Sorted) (hpast : ∀ t ∈ l.timestamps key, t ≤ now) :
    (l.recorded key now).Sorted := by
  intro k
  rw [recorded_timestamps]
  split_ifs
  · rw [List.pairwise_append]
    refine ⟨(hl key).filter _,List.pairwise_singleton ..,?_⟩
    intro t ht u hu
    rw [List.mem_singleton.mp hu]
    exact hpast t (mem_recent.mp ht).1
  · exact hl k

theorem cleanups_eq_of_not_due (h : ¬ l.cleanupDue now) :
    ((l.recorded key now).countedCleanup now).timedCleanup now = l.recorded key now := by
  rw [cleanupDue,not_or] at h
  have hcounted : (l.recorded key now).countedCleanup now = l.recorded key now := if_neg h.1
  rw [hcounted]
  exact if_neg h.2

/-- A granted call that does not overflow forgets nothing in a window. -/
theorem Overflows.remembers_of_not (hl : (l.recorded key now).Sorted)
    (hlt : ((recent l.window now (l.timestamps key)).length : ℤ) < l.max)
    (h : ¬ l.Overflows key now) :
    Remembers now (l.recorded key now)
      (((l.recorded key now).countedCleanup now).timedCleanup now) := by
  by_cases hdue : l.cleanupDue now
  · apply cleanups_remember hl
    have hroom : (l.othersInWindow key now).length + 1 ≤ maxIpEntries := by
      by_contra hfull
      exact h ⟨hlt,hdue,Nat.lt_of_not_le hfull⟩
    exact (length_keysInWindow_recorded l key now).trans hroom
  · rw [cleanups_eq_of_not_due hdue]
    exact fun _ _ _ => rfl

end InMemoryRateLimiter

namespace LimiterWorld

open InMemoryRateLimiter

variable {w w' : LimiterWorld} {r : String × ℚ} {key : String} {now : ℚ}

/-- What holds in every run: the table lists granted requests, in order. -/
structure Regular (w : LimiterWorld) : Prop where
  sorted : w.limiter.Sorted
  subset : ∀ k, w.limiter.timestamps k ⊆ w.grantsOf k
  past : ∀ r ∈ w.granted, r.2 ≤ w.clock

theorem request_cases (h : w.request (key,now) = some w') : w.clock ≤ now ∧
    (w.limiter.max ≤ ((recent w.limiter.window now (w.limiter.timestamps key)).length : ℤ) ∧
      w' = ⟨w.limiter.pruned key now,now,w.granted⟩ ∨
    ((recent w.limiter.window now (w.limiter.timestamps key)).length : ℤ) < w.limiter.max ∧
      w' = ⟨((w.limiter.recorded key now).countedCleanup now).timedCleanup now,now,
        w.granted ++ [(key,now)]⟩) := by
  rw [request] at h
  split_ifs at h with hclock
  refine ⟨hclock,?_⟩
  rcases le_or_gt w.limiter.max
    ((recent w.limiter.window now (w.limiter.timestamps key)).length : ℤ) with hle | hlt
  · left
    simp only [isAllowed_of_le hle,Option.some.injEq] at h
    exact ⟨hle,h.symm⟩
  · right
    simp only [isAllowed_of_lt hlt,Option.some.injEq] at h
    exact ⟨hlt,h.symm⟩

theorem grantsOf_append (limiter : InMemoryRateLimiter) (clock : ℚ) (granted : List (String × ℚ))
    (r : String × ℚ) (k : String) : grantsOf ⟨limiter,clock,granted ++ [r]⟩ k =
      grantsOf ⟨limiter,clock,granted⟩ k ++ if r.1 = k then [r.2] else [] := by
  rw [grantsOf,grantsOf,List.filter_append,List.map_append]
  by_cases hk : r.1 = k <;> simp [hk]

theorem Regular.past_grantsOf (hw : w.Regular) (k : String) : ∀ t ∈ w.grantsOf k, t ≤ w.clock := by
  intro t ht
  obtain ⟨r,hr,rfl⟩ := List.mem_map.mp ht
  exact hw.past r (List.mem_filter.mp hr).1

theorem new_regular (max : ℤ) (window start : ℚ) : (new max window start).Regular :=
  ⟨fun _ => List.Pairwise.nil,fun _ => List.nil_subset _,fun _ hr => absurd hr List.not_mem_nil⟩

theorem Regular.step (hw : w.Regular) (h : w.request (key,now) = some w') : w'.Regular := by
  rcases request_cases h with ⟨hclock,⟨-,rfl⟩ | ⟨-,rfl⟩⟩
  · refine ⟨fun k => ?_,fun k => ?_,fun r hr => (hw.past r hr).trans hclock⟩
    · rw [pruned_timestamps]
      split_ifs
      · exact (hw.sorted key).filter _
      · exact hw.sorted k
    · rw [pruned_timestamps]
      split_ifs with hk
      · subst hk
        exact fun t ht => hw.subset k (mem_recent.mp ht).1
      · exact hw.subset k
  · have hpast : ∀ t ∈ w.limiter.timestamps key, t ≤ now := fun t ht =>
      (hw.past_grantsOf key t (hw.subset key ht)).trans hclock
    have hforgets := cleanups_forget (w.limiter.recorded key now) now
    refine ⟨hforgets.sorted (recorded_sorted hw.sorted hpast),fun k => ?_,fun r hr => ?_⟩
    · apply List.Subset.trans (hforgets.subset k)
      rw [recorded_timestamps,grantsOf_append]
      by_cases hk : k = key
      · subst hk
        rw [if_pos rfl,if_pos rfl]
        intro t ht
        rcases List.mem_append.mp ht with hold | hnew
        · exact List.mem_append_left _ (hw.subset k (mem_recent.mp hold).1)
        · exact List.mem_append_right _ hnew
      · rw [if_neg hk,if_neg (Ne.symm hk),List.append_nil]
        exact hw.subset k
    · rcases List.mem_append.mp hr with hold | hnew
      · exact (hw.past r hold).trans hclock
      · rw [List.mem_singleton.mp hnew]

/-- What holds while no clean-up overflows: the table knows of every granted request in a
window. -/
structure Complete (w : LimiterWorld) : Prop extends Regular w where
  knows : ∀ k later, w.clock ≤ later → recent w.limiter.window later (w.limiter.timestamps k) =
    recent w.limiter.window later (w.grantsOf k)
  limited : w.Limited

theorem new_complete (max : ℤ) (window start : ℚ) : (new max window start).Complete :=
  ⟨new_regular max window start,fun _ _ _ => rfl,fun _ _ => Nat.zero_le _⟩

theorem Complete.step (hw : w.Complete) (h : w.request (key,now) = some w')
    (hfits : ¬ w.limiter.Overflows key now) : w'.Complete := by
  refine ⟨hw.toRegular.step h,?_,?_⟩
  · rcases request_cases h with ⟨hclock,⟨-,rfl⟩ | ⟨hlt,rfl⟩⟩
    · intro k later hlater
      rw [pruned_timestamps]
      split_ifs with hk
      · subst hk
        refine (recent_recent hlater _).trans ?_
        exact hw.knows k later (hclock.trans hlater)
      · exact hw.knows k later (hclock.trans hlater)
    · have hpast : ∀ t ∈ w.limiter.timestamps key, t ≤ now := fun t ht =>
        (hw.past_grantsOf key t (hw.subset key ht)).trans hclock
      have hforgets := cleanups_forget (w.limiter.recorded key now) now
      have hkeeps := Overflows.remembers_of_not (recorded_sorted hw.sorted hpast) hlt hfits
      intro k later hlater
      rw [hforgets.window_eq,hkeeps k later hlater,recorded_timestamps,grantsOf_append]
      by_cases hk : k = key
      · subst hk
        rw [if_pos rfl,if_pos rfl,recent_append,recent_append]
        rw [show (w.limiter.recorded k now).window = w.limiter.window from rfl]
        rw [recent_recent hlater,hw.knows k later (hclock.trans hlater)]
        rfl
      · rw [if_neg hk,if_neg (Ne.symm hk),List.append_nil]
        exact hw.knows k later (hclock.trans hlater)
  · rcases request_cases h with ⟨hclock,⟨-,rfl⟩ | ⟨hlt,rfl⟩⟩
    · exact hw.limited
    · have hforgets := cleanups_forget (w.limiter.recorded key now) now
      intro k
      rw [hforgets.window_eq,hforgets.max_eq,grantsOf_append]
      split_ifs with hk
      · apply Sparse.concat (hw.limited k)
        subst hk
        rw [← hw.knows key now hclock]
        exact Int.lt_toNat.mpr hlt
      · rw [List.append_nil]
        exact hw.limited k

theorem request_of_lt (hclock : w.clock ≤ now)
    (hlt : ((recent w.limiter.window now (w.limiter.timestamps key)).length : ℤ) < w.limiter.max) :
    w.request (key,now) =
      some ⟨((w.limiter.recorded key now).countedCleanup now).timedCleanup now,now,
        w.granted ++ [(key,now)]⟩ := by
  rw [request,if_pos hclock]
  simp only [isAllowed_of_lt hlt]
  rfl

variable (key) in
/-- A key of which the table knows little is granted what is missing at once. -/
theorem burst (n : ℕ) (hclock : w.clock = now)
    (hfew : ((w.limiter.timestamps key).length : ℤ) + n ≤ w.limiter.max) :
    ∃ w', machine.exec w (List.replicate n (key,now)) = some w' ∧ w'.clock = now ∧
      w'.granted = w.granted ++ List.replicate n (key,now) ∧
      w'.limiter.max = w.limiter.max ∧ w'.limiter.window = w.limiter.window := by
  induction n generalizing w with
  | zero => exact ⟨w,rfl,hclock,(List.append_nil _).symm,rfl,rfl⟩
  | succ n ih =>
    have hrecent : (recent w.limiter.window now (w.limiter.timestamps key)).length ≤
        (w.limiter.timestamps key).length := List.length_filter_le ..
    have hlt : ((recent w.limiter.window now (w.limiter.timestamps key)).length : ℤ) <
        w.limiter.max := by omega
    have hforgets := cleanups_forget (w.limiter.recorded key now) now
    have hlen := hforgets.timestamps key
    rw [recorded_timestamps,if_pos rfl] at hlen
    obtain ⟨w',hexec,hend,hgranted,hmax,hwindow⟩ := ih
      (w := ⟨((w.limiter.recorded key now).countedCleanup now).timedCleanup now,now,
        w.granted ++ [(key,now)]⟩) rfl (by
        rcases hlen with heq | hnil
        · rw [heq,hforgets.max_eq,List.length_append,List.length_singleton]
          change _ ≤ w.limiter.max
          omega
        · rw [hnil,hforgets.max_eq,List.length_nil]
          change _ ≤ w.limiter.max
          omega)
    refine ⟨w',?_,hend,?_,hmax.trans hforgets.max_eq,hwindow.trans hforgets.window_eq⟩
    · rw [List.replicate_succ,Machine.exec]
      change (w.request (key,now)).bind _ = _
      rw [request_of_lt (le_of_eq hclock) hlt]
      exact hexec
    · rw [hgranted,List.append_assoc]
      rfl

theorem length_cleanups (l : InMemoryRateLimiter) (now : ℚ)
    (h : l.callCount % cleanupInterval = 0 ∨ timeCleanupInterval ≤ now - l.lastTimeCleanup) :
    ((l.countedCleanup now).timedCleanup now).counts.keys.length ≤ maxIpEntries := by
  rw [timedCleanup]
  split_ifs with htime
  · exact length_cleanupStale ..
  · rw [countedCleanup_lastTimeCleanup] at htime
    rw [countedCleanup,if_pos (h.resolve_right htime)]
    exact length_cleanupStale ..

/-- A call that overflows forgets some key with a granted request in its window. -/
theorem Regular.forgets_of_overflows (hw : w.Regular) (hclock : w.clock ≤ now)
    (h : w.limiter.Overflows key now) : ∃ w' k, w.request (key,now) = some w' ∧ w'.clock = now ∧
      w'.limiter.max = w.limiter.max ∧ w'.limiter.timestamps k = [] ∧
      recent w'.limiter.window now (w'.grantsOf k) ≠ [] := by
  obtain ⟨hlt,hdue,hmany⟩ := h
  have hforgets := cleanups_forget (w.limiter.recorded key now) now
  have hfit := length_cleanups (w.limiter.recorded key now) now hdue
  -- more keys have requests in their windows than the table holds
  have hnodup : (key::w.limiter.othersInWindow key now).Nodup := by
    rw [List.nodup_cons,othersInWindow,List.mem_filter,decide_eq_true_eq]
    exact ⟨fun hkey => hkey.2.1 rfl,w.limiter.counts.nodup.filter _⟩
  obtain ⟨k,hk,hgone⟩ : ∃ k ∈ key::w.limiter.othersInWindow key now,
      k ∉ (((w.limiter.recorded key now).countedCleanup now).timedCleanup now).counts.keys := by
    by_contra hall
    simp only [not_exists,not_and,not_not] at hall
    have hlen := (List.subperm_of_subset hnodup hall).length_le
    rw [List.length_cons] at hlen
    omega
  have hothers : ∀ k' ∈ w.limiter.othersInWindow key now,
      ∃ t ∈ w.grantsOf k', now - w.limiter.window < t := by
    intro k' hk'
    rw [othersInWindow,List.mem_filter,decide_eq_true_eq] at hk'
    obtain ⟨t,ht⟩ := List.exists_mem_of_ne_nil _ hk'.2.2
    exact ⟨t,hw.subset k' (mem_recent.mp ht).1,(mem_recent.mp ht).2⟩
  have hpos : now - w.limiter.window < now := by
    have hne : w.limiter.othersInWindow key now ≠ [] := by
      intro hnil
      rw [hnil] at hmany
      exact absurd hmany (by decide)
    obtain ⟨k',hk'⟩ := List.exists_mem_of_ne_nil _ hne
    obtain ⟨t,ht,hin⟩ := hothers k' hk'
    exact lt_of_lt_of_le hin ((hw.past_grantsOf k' t ht).trans hclock)
  refine ⟨_,k,request_of_lt hclock hlt,rfl,hforgets.max_eq,?_,?_⟩
  · by_contra hsome
    exact hgone (mem_keys_of_timestamps hsome)
  · rw [hforgets.window_eq,grantsOf_append]
    obtain ⟨t,ht,hin⟩ : ∃ t ∈ w.grantsOf k ++ (if key = k then [now] else []),
        now - w.limiter.window < t := by
      rcases List.mem_cons.mp hk with rfl | hother
      · exact ⟨now,by simp,hpos⟩
      · obtain ⟨t,ht,hin⟩ := hothers k hother
        exact ⟨t,List.mem_append_left _ ht,hin⟩
    exact List.ne_nil_of_mem (mem_recent.mpr ⟨ht,hin⟩)

theorem Regular.breach (hw : w.Regular) (hclock : w.clock = now)
    (hgone : w.limiter.timestamps key = []) (hmax : 0 ≤ w.limiter.max)
    (hin : recent w.limiter.window now (w.grantsOf key) ≠ []) :
    ∃ w', machine.exec w (List.replicate w.limiter.max.toNat (key,now)) = some w' ∧
      ¬ w'.Limited := by
  obtain ⟨w',hexec,hend,hgranted,hmax',hwindow⟩ := burst key w.limiter.max.toNat hclock
    (by rw [hgone,List.length_nil]; omega)
  refine ⟨w',hexec,fun hlimited => ?_⟩
  have hgrants : w'.grantsOf key = w.grantsOf key ++ List.replicate w.limiter.max.toNat now := by
    rw [grantsOf,hgranted,List.filter_append,List.map_append,List.filter_replicate]
    simp [grantsOf]
  have hpos : now - w.limiter.window < now := by
    obtain ⟨t,ht⟩ := List.exists_mem_of_ne_nil _ hin
    obtain ⟨hmem,hlt⟩ := mem_recent.mp ht
    exact lt_of_lt_of_le hlt ((hw.past_grantsOf key t hmem).trans (le_of_eq hclock))
  have hall : ∀ t ∈ w'.grantsOf key, t ≤ now := by
    rw [hgrants]
    intro t ht
    rcases List.mem_append.mp ht with hold | hnew
    · exact (hw.past_grantsOf key t hold).trans (le_of_eq hclock)
    · exact le_of_eq (List.eq_of_mem_replicate hnew)
  have hnew : recent w.limiter.window now (List.replicate w.limiter.max.toNat now) =
      List.replicate w.limiter.max.toNat now := by
    rw [recent,List.filter_replicate,decide_eq_true hpos]
    rfl
  have hlen := List.length_pos_of_ne_nil hin
  refine not_sparse_of_recent hall ?_ (hlimited key)
  rw [hwindow,hmax',hgrants,recent_append,hnew,List.length_append,List.length_replicate]
  omega

/-- Each key is granted at most the configured number of requests in each window, as long as no
clean-up runs while more keys have requests in their windows than the table holds; a clean-up
that does can be followed by a breach. -/
theorem limited_unless_overflows (max : ℤ) (window start : ℚ) :
    (∀ es, machine.Along (fun w r _ => ¬ w.limiter.Overflows r.1 r.2) (new max window start) es →
      machine.Along (fun _ _ w' => w'.Limited) (new max window start) es) ∧
    ∀ es w key now, machine.exec (new max window start) es = some w → w.clock ≤ now →
      w.limiter.Overflows key now → ∃ k n w',
        machine.exec w ((key,now)::List.replicate n (k,now)) = some w' ∧ ¬ w'.Limited := by
  refine ⟨fun es hes => ?_,fun es w key now hrun hclock h => ?_⟩
  · refine Machine.Along.of_invariant (I := Complete) ?_ (new_complete max window start) hes
    intro w r w' hw hstep hfits
    have hw' := hw.step hstep hfits
    exact ⟨hw'.limited,hw'⟩
  · have hw : w.Regular := (Machine.Reaches.of_exec hrun).invariant (I := Regular)
      (fun _ _ _ hx _ hstep => hx.step hstep) (new_regular max window start)
    obtain ⟨w₁,k,hstep,hend,hmax,hgone,hin⟩ := hw.forgets_of_overflows hclock h
    have hpos : 0 ≤ w₁.limiter.max := by
      rw [hmax]
      exact (Int.natCast_nonneg _).trans (le_of_lt h.1)
    obtain ⟨w',hexec,hbreach⟩ := (hw.step hstep).breach hend hgone hpos hin
    refine ⟨k,w₁.limiter.max.toNat,w',?_,hbreach⟩
    rw [Machine.exec]
    change (w.request (key,now)).bind _ = _
    rw [hstep]
    exact hexec

/-- The clients `10.0.0.0`, `10.0.0.1` and so on. -/
def client (i : ℕ) : String :=
  String.ofList ("10.0.".toList ++ (natDigits (i / 256)).map Digit.char ++
    '.'::(natDigits (i % 256)).map Digit.char)

theorem client_injective : Function.Injective client := by
  have hdot : ∀ ds : List Digit, '.' ∉ ds.map Digit.char := by
    have hdigit : ∀ d : Digit, d.char ≠ '.' := by decide
    intro ds h
    obtain ⟨d,-,hd⟩ := List.mem_map.mp h
    exact hdigit d hd
  intro i j h
  obtain ⟨hhigh,hlow⟩ := append_sep_inj (hdot _) (hdot _) (String.ofList_injective h)
  have hquot := natDigits_inj (map_char_inj (List.append_cancel_left hhigh))
  have hrem := natDigits_inj (map_char_inj hlow)
  omega

/-- Each of the first `n` clients was granted one request at time zero. -/
structure Filled (n : ℕ) (w : LimiterWorld) : Prop where
  max_eq : w.limiter.max = 30
  window_eq : w.limiter.window = 60
  keys : w.limiter.counts.keys = (List.range n).map client
  once : ∀ k ∈ w.limiter.counts.keys, w.limiter.counts.get? k = some [0]
  callCount : w.limiter.callCount = n
  lastTimeCleanup : w.limiter.lastTimeCleanup = 0
  clock : w.clock = 0

theorem Filled.length {n : ℕ} (hw : Filled n w) : w.limiter.counts.entries.length = n := by
  rw [← Dict.length_keys,hw.keys,List.length_map,List.length_range]

theorem Filled.timestamps_nil {n : ℕ} (hw : Filled n w) :
    w.limiter.timestamps (client n) = [] := by
  have hnew : client n ∉ w.limiter.counts.keys := by
    rw [hw.keys,List.mem_map]
    rintro ⟨i,hi,heq⟩
    rw [client_injective heq] at hi
    exact absurd (List.mem_range.mp hi) (lt_irrefl n)
  rw [timestamps,Dict.get?_eq_none_iff.mpr hnew]
  rfl

theorem Filled.recorded {n : ℕ} (hw : Filled n w) (granted : List (String × ℚ)) :
    Filled (n + 1) ⟨w.limiter.recorded (client n) 0,0,granted⟩ := by
  have hnil := hw.timestamps_nil
  have hnew : client n ∉ w.limiter.counts.keys := by
    intro hk
    rw [timestamps,hw.once _ hk] at hnil
    simp at hnil
  have hkeys : (w.limiter.recorded (client n) 0).counts.keys =
      w.limiter.counts.keys ++ [client n] := by
    rw [InMemoryRateLimiter.recorded,Dict.keys_set_of_mem,Dict.keys_set_of_not_mem _ hnew]
    rw [Dict.keys_set_of_not_mem _ hnew]
    exact List.mem_append_right _ (List.mem_singleton_self _)
  refine ⟨hw.max_eq,hw.window_eq,?_,?_,congrArg (· + 1) hw.callCount,hw.lastTimeCleanup,rfl⟩
  · rw [hkeys,hw.keys,List.range_succ,List.map_append]
    rfl
  · intro k hk
    rw [InMemoryRateLimiter.recorded,Dict.get?_set,Dict.get?_set]
    split_ifs with hkey
    · rw [hnil]
      rfl
    · have hk' : k ∈ w.limiter.counts.keys ++ [client n] := hkeys ▸ hk
      exact hw.once k ((List.mem_append.mp hk').resolve_right (by simpa using hkey))

theorem Filled.liveCounts_eq {n : ℕ} (hw : Filled n w) :
    w.limiter.liveCounts 0 = w.limiter.counts := by
  have hnone : (w.limiter.counts.entries.filter fun p =>
      isStale (0 - w.limiter.window) p.2) = [] := by
    rw [List.filter_eq_nil_iff]
    rintro ⟨k,v⟩ hp
    have hget := Dict.get?_eq_some_iff.mpr hp
    rw [hw.once k (Dict.mem_keys_iff.mpr ⟨v,hget⟩),Option.some.injEq] at hget
    rw [← hget,hw.window_eq]
    norm_num [isStale]
  rw [liveCounts,hnone]
  rfl

theorem Filled.cleanupStale_eq {n : ℕ} (hw : Filled n w) : w.limiter.cleanupStale 0 =
    { w.limiter with counts := if maxIpEntries < n then
        (excessKeys w.limiter.counts).foldl Dict.erase w.limiter.counts
      else w.limiter.counts } := by
  rw [InMemoryRateLimiter.cleanupStale_eq,hw.liveCounts_eq,hw.length]

theorem Filled.timedCleanup_eq {n : ℕ} (hw : Filled n w) :
    (w.limiter.countedCleanup 0).timedCleanup 0 = w.limiter.countedCleanup 0 := by
  rw [timedCleanup,countedCleanup_lastTimeCleanup,hw.lastTimeCleanup]
  exact if_neg (by norm_num [timeCleanupInterval])

theorem Filled.request_eq {n : ℕ} (hw : Filled n w) : w.request (client n,0) =
    some ⟨(w.limiter.recorded (client n) 0).countedCleanup 0,0,w.granted ++ [(client n,0)]⟩ := by
  have hnext := hw.recorded []
  rw [request_of_lt (le_of_eq hw.clock)]
  · exact congrArg (fun l => some (⟨l,0,w.granted ++ [(client n,0)]⟩ : LimiterWorld))
      hnext.timedCleanup_eq
  · rw [hw.timestamps_nil,hw.max_eq,recent_nil]
    decide

/-- Up to its bound, and until the next clean-up beyond it, the table keeps each client. -/
theorem Filled.step {n : ℕ} (hw : Filled n w)
    (h : n + 1 ≤ maxIpEntries ∨ (n + 1) % cleanupInterval ≠ 0) :
    ∃ w', w.request (client n,0) = some w' ∧ Filled (n + 1) w' := by
  have hnext := hw.recorded (w.granted ++ [(client n,0)])
  refine ⟨_,hw.request_eq,?_⟩
  have hsame : (w.limiter.recorded (client n) 0).countedCleanup 0 =
      w.limiter.recorded (client n) 0 := by
    rw [countedCleanup,hnext.callCount]
    split_ifs with hdue
    · have hfits := h.resolve_right (not_not.mpr hdue)
      have hclean := hnext.cleanupStale_eq
      rw [if_neg (Nat.not_lt.mpr hfits)] at hclean
      exact hclean
    · rfl
  rw [hsame]
  exact hnext

theorem exists_filled (n : ℕ) (hn : n < 10100) : ∃ w, machine.exec (new 30 60 0)
    ((List.range n).map fun i => (client i,0)) = some w ∧ Filled n w := by
  induction n with
  | zero =>
    refine ⟨_,rfl,rfl,rfl,rfl,?_,rfl,rfl,rfl⟩
    intro k hk
    exact absurd hk List.not_mem_nil
  | succ n ih =>
    obtain ⟨w,hrun,hw⟩ := ih (Nat.lt_of_succ_lt hn)
    obtain ⟨w',hstep,hw'⟩ := hw.step (by rw [maxIpEntries,cleanupInterval]; omega)
    refine ⟨w',?_,hw'⟩
    rw [List.range_succ,List.map_append]
    exact Machine.exec_concat hrun hstep

theorem Filled.forgets (hw : Filled 10099 w) : ∃ w', w.request (client 10099,0) = some w' ∧
    w'.clock = 0 ∧ w'.limiter.max = 30 ∧ w'.limiter.timestamps (client 0) = [] ∧
    w'.granted = w.granted ++ [(client 10099,0)] := by
  have hnext := hw.recorded (w.granted ++ [(client 10099,0)])
  have hclean := hnext.cleanupStale_eq
  rw [if_pos (by decide)] at hclean
  have hdue : (w.limiter.recorded (client 10099) 0).countedCleanup 0 =
      (w.limiter.recorded (client 10099) 0).cleanupStale 0 := by
    rw [countedCleanup,hnext.callCount]
    rfl
  refine ⟨_,hw.request_eq,rfl,?_,?_,rfl⟩
  · rw [(countedCleanup_forgets _ 0).max_eq]
    exact hw.max_eq
  · rw [hdue,hclean]
    have hfirst : client 0 ∈ excessKeys (w.limiter.recorded (client 10099) 0).counts := by
      -- all were used at the same time, so that the sort leaves them in the order they came
      have hsame : ∀ k ∈ (w.limiter.recorded (client 10099) 0).counts.keys,
          lastOf (w.limiter.recorded (client 10099) 0).counts k = 0 := fun k hk =>
        lastOf_eq (hnext.once k hk) rfl
      have hsorted : (w.limiter.recorded (client 10099) 0).counts.keys.Pairwise fun a b =>
          decide (lastOf (w.limiter.recorded (client 10099) 0).counts a ≤
            lastOf (w.limiter.recorded (client 10099) 0).counts b) = true := by
        apply List.pairwise_of_forall_mem_list
        intro a ha b hb
        rw [hsame a ha,hsame b hb]
        exact decide_eq_true le_rfl
      rw [excessKeys,List.mergeSort_of_pairwise hsorted,hnext.length,hnext.keys]
      rw [← List.map_take,List.mem_map]
      refine ⟨0,?_,rfl⟩
      rw [List.take_range,List.mem_range]
      decide
    rw [timestamps,Dict.get?_foldl_erase,if_pos hfirst]
    rfl

/-- More clients than the table holds, and the first of them again. -/
def manyClients : List (String × ℚ) :=
  (List.range 10100).map (fun i => (client i,0)) ++ List.replicate 30 (client 0,0)

set_option linter.constructorNameAsVariable false in
theorem eviction_exceeds_limit :
    ¬ machine.Along (fun _ _ w' => w'.Limited) (new 30 60 0) manyClients := by
  intro hall
  obtain ⟨w,hrun,hw⟩ := exists_filled 10099 (by decide)
  obtain ⟨w₁,hstep,hclock,hmax,hgone,hgranted⟩ := hw.forgets
  have hreg : w.Regular := (Machine.Reaches.of_exec hrun).invariant (I := Regular)
    (fun _ _ _ hx _ hstep => hx.step hstep) (new_regular 30 60 0)
  have hfirst : (0 : ℚ) ∈ w.grantsOf (client 0) := by
    apply hreg.subset
    have hmem : client 0 ∈ w.limiter.counts.keys := by
      rw [hw.keys]
      exact List.mem_map_of_mem (List.mem_range.mpr (by decide))
    rw [timestamps,hw.once _ hmem]
    exact List.mem_singleton_self _
  have hin : recent w₁.limiter.window 0 (w₁.grantsOf (client 0)) ≠ [] := by
    have hwindow : w₁.limiter.window = 60 := by
      rw [hw.request_eq,Option.some.injEq] at hstep
      rw [← hstep,(countedCleanup_forgets _ 0).window_eq]
      exact hw.window_eq
    apply List.ne_nil_of_mem (a := 0)
    rw [mem_recent,hwindow,grantsOf,hgranted,List.filter_append,List.map_append]
    exact ⟨List.mem_append_left _ hfirst,by norm_num⟩
  obtain ⟨w',hexec,hbreach⟩ := (hreg.step hstep).breach hclock hgone (by rw [hmax]; decide) hin
  rw [hmax] at hexec
  have hclients : machine.exec (new 30 60 0)
      ((List.range 10100).map fun i => (client i,0)) = some w₁ := by
    rw [List.range_succ,List.map_append]
    exact Machine.exec_concat hrun hstep
  have hne : manyClients ≠ [] := by simp [manyClients]
  exact hbreach (hall.reached hne (Machine.exec_append hclients hexec))

end LimiterWorld
end FusionMultiNodes
