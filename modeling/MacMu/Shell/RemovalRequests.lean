import MacMu.Shell.RemovalTokens

/-!
Issuing the requests of a block. A DISPLAY_REMOVE is issued only for a marked id
without an outstanding removal, and a launch only on such an id; every request
then extends the history and leaves at most one new token.
-/

namespace MacMu
namespace RemovalRequests

open Std ControlProtocol RemovalMarks RemovalTokens

variable {w : World} {e : Effect} {d : UInt32} {t : Nat}

theorem lastLaunch_append (issued : List Issued) (x : Issued) (d : UInt32) :
    lastLaunch (issued ++ [x]) d =
      if x = .launch d then some issued.length else lastLaunch issued d := by
  simp only [lastLaunch, List.reverse_append, List.reverse_cons, List.reverse_nil, List.nil_append,
    List.cons_append, List.findIdx?_cons, beq_iff_eq, List.length_append, List.length_cons,
    List.length_nil]
  split
  · simp
  · rw [Option.map_map]
    congr 1
    funext back
    simp only [Function.comp_apply]
    omega

theorem issuedEntry_remove {bound : Option Nat} (h : w.issuedEntry e = .remove d bound) :
    e = .displayRemove d ∧ bound = boundTo w.shell w.issued d := by
  cases e <;> first | (cases h; exact ⟨rfl, rfl⟩) | cases h

theorem issuedEntry_launch (h : w.issuedEntry e = .launch d) : d ∈ launches [e] := by
  cases e <;> first | (cases h; exact List.mem_singleton.mpr rfl) | cases h

theorem getElem?_append_of_some {issued : List Issued} {x : Issued} (h : issued[t]? = some x)
    (more : List Issued) : (issued ++ more)[t]? = some x := by
  rw [List.getElem?_append_left (List.getElem?_eq_some_iff.mp h).1, h]

theorem getElem?_issue {issued : List Issued} {x y : Issued} (h : (issued ++ [x])[t]? = some y) :
    issued[t]? = some y ∨ t = issued.length ∧ x = y := by
  rcases Nat.lt_or_ge t issued.length with hlt | hge
  · rw [List.getElem?_append_left hlt] at h
    exact .inl h
  · rw [List.getElem?_append_right hge, List.getElem?_singleton] at h
    split at h
    · exact .inr ⟨by omega, Option.some.inj h⟩
    · cases h

structure Issuable (w : World) (e : Effect) : Prop where
  removal : ∀ d, e = .displayRemove d → d ∈ w.shell.displayRemovalPending ∧ Settled w d
  launch : ∀ d ∈ launches [e], Settled w d

theorem lastLaunch_issue (he : Issuable w e) {bound : Option Nat}
    (ht : w.issued[t]? = some (.remove d bound)) (hopen : t ∉ w.answered) :
    lastLaunch (w.issued ++ [w.issuedEntry e]) d = lastLaunch w.issued d := by
  rw [lastLaunch_append, if_neg]
  intro hentry
  exact hopen (he.launch d (issuedEntry_launch hentry) t bound ht)

theorem tracked_note (h : Tracked w) (he : Issuable w e) :
    Tracked { w with issued := w.issued ++ [w.issuedEntry e] } where
  drained := h.drained
  queued := h.queued
  once := h.once
  emits := h.emits
  answered_lt := by
    intro t ht
    rw [List.length_append]
    exact Nat.lt_add_right _ (h.answered_lt t ht)
  issued_of_emitted := by
    intro t ht
    obtain ⟨d, bound, hissued⟩ := h.issued_of_emitted t ht
    exact ⟨d, bound, getElem?_append_of_some hissued _⟩
  issued_of_token := by
    intro x hx
    obtain ⟨bound, hissued⟩ := h.issued_of_token x hx
    exact ⟨bound, getElem?_append_of_some hissued _⟩
  marked := by
    intro t d bound ht hopen
    rcases getElem?_issue ht with ht | ⟨-, hentry⟩
    · exact h.marked t d bound ht hopen
    · exact (he.removal d (issuedEntry_remove hentry).1).1
  launched_before := by
    intro t d bound ht hopen i hi
    rcases getElem?_issue ht with ht | ⟨rfl, hentry⟩
    · rcases getElem?_issue hi with hi | ⟨-, hlaunch⟩
      · exact h.launched_before t d bound ht hopen i hi
      · exact absurd (he.launch d (issuedEntry_launch hlaunch) t bound ht) hopen
    · rcases getElem?_issue hi with hi | ⟨-, hlaunch⟩
      · exact (List.getElem?_eq_some_iff.mp hi).1
      · rw [hentry] at hlaunch
        cases hlaunch
  same_instance := by
    intro t d bound ht hopen i hi
    rcases getElem?_issue ht with ht | ⟨rfl, hentry⟩
    · rw [boundTo, lastLaunch_issue he ht hopen] at hi
      exact h.same_instance t d bound ht hopen i hi
    · have hsame : lastLaunch (w.issued ++ [w.issuedEntry e]) d = lastLaunch w.issued d := by
        rw [lastLaunch_append, hentry, if_neg Issued.noConfusion]
      rw [boundTo, hsame] at hi
      rw [(issuedEntry_remove hentry).2, ← hi, boundTo]
  single := by
    intro t u d bound bound' ht hu hopen hopen'
    rcases getElem?_issue ht with ht | ⟨rfl, hentry⟩
    · rcases getElem?_issue hu with hu | ⟨rfl, hentry⟩
      · exact h.single t u d bound bound' ht hu hopen hopen'
      · exact absurd ((he.removal d (issuedEntry_remove hentry).1).2 t bound ht) hopen
    · rcases getElem?_issue hu with hu | ⟨rfl, -⟩
      · exact absurd ((he.removal d (issuedEntry_remove hentry).1).2 u bound' hu) hopen'
      · rfl

theorem count_cons_fresh {l l' : List Nat} {n : Nat} (h : l.count t + l'.count t ≤ 1) (hl : n ∉ l)
    (hl' : n ∉ l') : (n :: l).count t + l'.count t ≤ 1 := by
  rw [List.count_cons]
  split
  · rename_i heq
    rw [beq_iff_eq] at heq
    rw [← heq, List.count_eq_zero.mpr hl, List.count_eq_zero.mpr hl']
  · exact h

theorem tracked_push (h : Tracked w) (f : RequestFrame) (id : UInt32)
    (pending : ExtTreeMap UInt32 (Nat × Completion))
    (hfresh : ∀ x, frameToken f = some x →
      (∃ bound, w.issued[x.1]? = some (.remove x.2 bound)) ∧ x.1 ∉ (tokens w).map Prod.fst ∧
        x.1 ∉ w.answered ∧ x.1 ∉ w.emitted) :
    Tracked { w with nextRequestId := id, pending := pending, toQemu := w.toQemu ++ [f] } := by
  cases hf : frameToken f with
  | none =>
    have hsame : requested { w with
        nextRequestId := id, pending := pending, toQemu := w.toQemu ++ [f] } = requested w := by
      simp only [requested, List.filterMap_append, List.filterMap_cons, hf, List.filterMap_nil,
        List.append_nil]
    refine h.of_moved rfl rfl rfl (fun x hx => .inl hx) ?_ ?_
    · rw [tokens, hsame]
      exact List.Subperm.refl _
    · rw [hsame]
  | some x =>
    obtain ⟨hissued, hnew, hopen, hsilent⟩ := hfresh x hf
    have hrequested : requested { w with
        nextRequestId := id, pending := pending, toQemu := w.toQemu ++ [f] } =
          w.toQemu.filterMap frameToken ++ x :: w.looper.filterMap taskToken := by
      simp only [requested, List.filterMap_append, List.filterMap_cons, hf, List.filterMap_nil,
        List.append_assoc, List.cons_append, List.nil_append]
    have hperm : List.Perm (requested { w with
        nextRequestId := id, pending := pending, toQemu := w.toQemu ++ [f] })
          (x :: requested w) := by
      rw [hrequested]
      exact List.perm_middle
    refine { h with once := ?_, emits := ?_, issued_of_token := ?_ }
    · intro t
      have hold := h.once t
      have hcount := ((hperm.append_right (returning w)).map Prod.fst).count_eq t
      rw [List.count_append] at hold ⊢
      change List.count t (List.map Prod.fst (tokens _)) + _ ≤ 1
      refine Nat.le_trans (Nat.le_of_eq (congrArg (· + _) hcount)) ?_
      change List.count t (x.1 :: (tokens w).map Prod.fst) + _ ≤ 1
      exact count_cons_fresh hold hnew hopen
    · intro t
      have hold := h.emits t
      rw [List.count_append] at hold ⊢
      rw [(hperm.map Prod.fst).count_eq t]
      refine count_cons_fresh hold ?_ hsilent
      intro hmem
      apply hnew
      rw [tokens, List.map_append]
      exact List.mem_append_left _ hmem
    · intro y hy
      rcases List.mem_append.mp hy with hy | hy
      · rcases List.mem_cons.mp (hperm.mem_iff.mp hy) with rfl | hy
        · exact hissued
        · exact h.issued_of_token y (List.mem_append_left _ hy)
      · exact h.issued_of_token y (List.mem_append_right _ hy)

theorem frameToken_request {r : ControlRequest} {tag : Nat} {id : UInt32} {x : Nat × UInt32}
    (hr : e.controlRequest = some r) (hx : frameToken ⟨tag, r.type.code, id, r.payload⟩ = some x) :
    x.1 = tag ∧ e = .displayRemove x.2 := by
  cases e with
  | displayRemove d =>
    cases hr
    cases hx
    exact ⟨rfl, by rw [displayIdOfBytes_bytes]⟩
  | launchDisplayAdd | resizeDisplayAdd | displayStream =>
    cases hr
    cases hx
  | _ => cases hr

theorem tracked_request (h : Tracked w) (he : Issuable w e) (outcome : WriteOutcome) :
    Tracked (w.request e outcome) := by
  unfold World.request
  split
  · exact h
  · rename_i r hr
    have hnoted := tracked_note h he
    cases outcome with
    | refused => exact hnoted.complete _ _ _
    | failed =>
      refine Tracked.complete ?_ _ _ _
      exact hnoted.of_moved rfl rfl rfl (fun x hx => .inl hx) (List.Subperm.refl _)
        (List.Subperm.refl _)
    | written =>
      apply tracked_push hnoted
      intro x hx
      obtain ⟨htag, rfl⟩ := frameToken_request hr hx
      rw [htag]
      -- every tag in use is below the number of requests issued before
      refine ⟨⟨_, List.getElem?_concat_length⟩, ?_, ?_, ?_⟩
      · intro hmem
        obtain ⟨y, hy, heq⟩ := List.mem_map.mp hmem
        exact absurd heq (Nat.ne_of_lt (h.token_lt hy))
      · intro hmem
        exact Nat.lt_irrefl _ (h.answered_lt _ hmem)
      · intro hmem
        obtain ⟨d, bound, hissued⟩ := h.issued_of_emitted _ hmem
        exact Nat.lt_irrefl _ (List.getElem?_eq_some_iff.mp hissued).1

theorem request_history (w : World) (e : Effect) (outcome : WriteOutcome) :
    (w.request e outcome).shell = w.shell ∧ (w.request e outcome).answered = w.answered ∧
      ((w.request e outcome).issued = w.issued ∨
        (w.request e outcome).issued = w.issued ++ [w.issuedEntry e]) := by
  unfold World.request
  split
  · exact ⟨rfl, rfl, .inl rfl⟩
  · cases outcome with
    | refused | failed =>
      dsimp only
      rw [World.complete_eq]
      exact ⟨rfl, rfl, .inr rfl⟩
    | written => exact ⟨rfl, rfl, .inr rfl⟩

theorem settled_request (h : Settled w d) (he : e ≠ .displayRemove d) (outcome : WriteOutcome) :
    Settled (w.request e outcome) d := by
  obtain ⟨-, hanswered, hissued⟩ := request_history ..
  intro t bound ht
  rw [hanswered]
  rcases hissued with hissued | hissued
  · rw [hissued] at ht
    exact h t bound ht
  · rw [hissued] at ht
    rcases getElem?_issue ht with ht | ⟨-, hentry⟩
    · exact h t bound ht
    · exact absurd (issuedEntry_remove hentry).1 he

theorem tracked_requests (h : Tracked w) (es : List Effect) (outcomes : List WriteOutcome)
    (hnodup : (removals es).Nodup)
    (hremovals : ∀ d ∈ removals es, d ∈ w.shell.displayRemovalPending ∧ Settled w d)
    (hlaunches : ∀ d ∈ launches es, d ∉ removals es ∧ Settled w d) :
    Tracked (w.requests es outcomes) := by
  induction es generalizing w outcomes with
  | nil => exact h
  | cons e es ih =>
    have hhead : ∀ d, e = .displayRemove d → d ∈ removals (e :: es) := by
      rintro d rfl
      exact List.mem_cons_self
    have htail : ∀ d ∈ removals es, d ∈ removals (e :: es) := by
      intro d hd
      rw [removals, ← List.singleton_append, List.filterMap_append]
      exact List.mem_append_right _ hd
    have hother : ∀ d ∈ removals es, e ≠ .displayRemove d := by
      rintro d hd rfl
      exact (List.nodup_cons.mp hnodup).1 hd
    have hlaunchHead : ∀ d ∈ launches [e], d ∈ launches (e :: es) := by
      intro d hd
      rw [launches, ← List.singleton_append, List.filterMap_append]
      exact List.mem_append_left _ hd
    have hlaunchTail : ∀ d ∈ launches es, d ∈ launches (e :: es) := by
      intro d hd
      rw [launches, ← List.singleton_append, List.filterMap_append]
      exact List.mem_append_right _ hd
    have hstep : Tracked (w.request e (outcomes.headD .written)) :=
      tracked_request h ⟨fun d hd => hremovals d (hhead d hd),
        fun d hd => (hlaunches d (hlaunchHead d hd)).2⟩ _
    have hshell := (request_history w e (outcomes.headD .written)).1
    refine ih hstep outcomes.tail ?_ ?_ ?_
    · rw [removals, ← List.singleton_append, List.filterMap_append] at hnodup
      exact (List.nodup_append.mp hnodup).2.1
    · intro d hd
      rw [hshell]
      obtain ⟨hmark, hsettled⟩ := hremovals d (htail d hd)
      exact ⟨hmark, settled_request hsettled (hother d hd) _⟩
    · intro d hd
      obtain ⟨hnot, hsettled⟩ := hlaunches d (hlaunchTail d hd)
      refine ⟨fun hmem => hnot (htail d hmem), settled_request hsettled ?_ _⟩
      rintro rfl
      exact hnot (hhead d rfl)

end RemovalRequests
end MacMu
