import Mvc.Proofs.Turns

/-! # How a view follows the busy flag

A view is told of the busy flag at once or by words that wait for the presentation thread. It
follows the flag if it will be enabled exactly while no operation is at work once all words
that wait for it are heard (`Follows`). Most of what the application does neither changes the
flag nor tells a view of it; a write behind the presentation thread leaves word; a write on the
presentation thread tells the view at once, which is right if no word is still on its way.
-/

namespace Mvc.App

/-- What an errand tells a view by a connection. -/
def Errand.word? (id : ConnectionId) : Errand → Option Bool
  | .tell other _ busy => if other = id then some busy else none
  | .complete _ => none

namespace Gist

/-- The words that wait for a view by a connection. -/
def words (g : Gist) (id : ConnectionId) : List Bool := g.waiting.filterMap (Errand.word? id)

/-- Whether an operation is at work. -/
def flag (g : Gist) : Bool := g.busy.asBool?.getD false

/-- No word is on its way. -/
def Unspoken (g : Gist) : Prop := ∀ id view busy, .tell id view busy ∉ g.waiting

/-- No word is on its way to anybody who is still connected. -/
def Wordless (g : Gist) : Prop :=
  ∀ id view busy, .tell id view busy ∈ g.waiting → g.frame.connected id = false

/-- One view at most follows the busy flag, and it does so when all words that wait are heard. -/
structure Follows (g : Gist) : Prop where
  single : g.frame.followers.length ≤ 1
  linked : ∀ f ∈ g.frame.followers, g.frame.connected f.1 = true
  known : ∀ id view busy, .tell id view busy ∈ g.waiting → g.frame.connected id = true →
    (id, view) ∈ g.frame.followers
  unrouted : g.frame.routed = false → g.Unspoken
  agrees : ∀ f ∈ g.frame.followers, (g.words f.1).getLastD (!g.enabled f.2) = g.flag

/-- The view still follows, and words are only for those who follow. -/
structure Faithful (g g' : Gist) : Prop where
  frame : g'.frame = g.frame
  news : ∀ id view busy, .tell id view busy ∈ g'.waiting →
    .tell id view busy ∈ g.waiting ∨ (id, view) ∈ g.frame.followers
  follows : g.Follows → g'.Follows

variable {g g₁ g' : Gist}

theorem Faithful.refl (g : Gist) : g.Faithful g := ⟨rfl, fun _ _ _ => .inl, id⟩

theorem Faithful.trans (first : g.Faithful g₁) (second : g₁.Faithful g') : g.Faithful g' where
  frame := second.frame.trans first.frame
  news id view busy member := by
    rcases second.news id view busy member with old | new
    · exact first.news id view busy old
    · exact .inr (first.frame ▸ new)
  follows := second.follows ∘ first.follows

/-- Words of the worker's thread, as of any thread, are words. -/
theorem faithful_thread (thread : Thread) (g : Gist) : g.Faithful { g with thread } :=
  ⟨rfl, fun _ _ _ => .inl, fun f => ⟨f.single, f.linked, f.known, f.unrouted, f.agrees⟩⟩

/-! ## What does not concern the busy flag -/

/-- The flag is as it was, and the view is told nothing. -/
structure Aloof (g g' : Gist) : Prop where
  frame : g'.frame = g.frame
  busy : g'.busy = g.busy
  enabled : g'.enabled = g.enabled
  waiting : ∃ messages : List String, g'.waiting = g.waiting ++ messages.map .complete

namespace Aloof

theorem refl (g : Gist) : g.Aloof g := ⟨rfl, rfl, rfl, [], (List.append_nil _).symm⟩

theorem trans (first : g.Aloof g₁) (second : g₁.Aloof g') : g.Aloof g' := by
  obtain ⟨messages, waiting⟩ := first.waiting
  obtain ⟨messages', waiting'⟩ := second.waiting
  refine ⟨second.frame.trans first.frame, second.busy.trans first.busy,
    second.enabled.trans first.enabled, messages ++ messages', ?_⟩
  rw [waiting', waiting, List.map_append, List.append_assoc]

theorem words (aloof : g.Aloof g') (id : ConnectionId) : g'.words id = g.words id := by
  obtain ⟨messages, waiting⟩ := aloof.waiting
  have silent : (messages.map Errand.complete).filterMap (Errand.word? id) = [] := by
    simp [List.filterMap_map, Function.comp_def, Errand.word?]
  rw [Gist.words, waiting, List.filterMap_append, silent, List.append_nil]
  rfl

theorem tells (aloof : g.Aloof g') {id : ConnectionId} {view : Nat} {busy : Bool} :
    .tell id view busy ∈ g'.waiting ↔ .tell id view busy ∈ g.waiting := by
  obtain ⟨messages, waiting⟩ := aloof.waiting
  simp [waiting]

theorem faithful (aloof : g.Aloof g') : g.Faithful g' := by
  refine ⟨aloof.frame, fun _ _ _ member => .inl (aloof.tells.mp member), fun follows => ?_⟩
  refine ⟨?_, ?_, fun id view busy member => ?_, fun unrouted id view busy member => ?_,
    fun f member => ?_⟩
  · rw [aloof.frame]
    exact follows.single
  · rw [aloof.frame]
    exact follows.linked
  · rw [aloof.frame]
    exact follows.known id view busy (aloof.tells.mp member)
  · rw [aloof.frame] at unrouted
    exact follows.unrouted unrouted id view busy (aloof.tells.mp member)
  · rw [aloof.frame] at member
    rw [aloof.words, aloof.enabled, flag, aloof.busy]
    exact follows.agrees f member

end Aloof

theorem complain_aloof (message : String) (g : Gist) : g.Aloof (g.complain message) :=
  ⟨rfl, rfl, rfl, [], (List.append_nil _).symm⟩

theorem confirm_aloof (message : String) (g : Gist) : g.Aloof (g.confirm message) :=
  ⟨rfl, rfl, rfl, [], (List.append_nil _).symm⟩

theorem setStatus_aloof (value : Value) (g : Gist) : g.Aloof (g.setStatus value) := by
  unfold setStatus
  split
  · exact .refl g
  · exact ⟨rfl, rfl, rfl, [], (List.append_nil _).symm⟩

theorem setTexts_aloof (texts : List String) (g : Gist) : g.Aloof (g.setTexts texts) := by
  induction texts generalizing g with
  | nil => exact .refl g
  | cons text rest ih => exact (setStatus_aloof _ g).trans (ih _)

theorem run_aloof (operation : Operation) (g : Gist) : g.Aloof (g.run operation) := by
  unfold run
  split
  · exact complain_aloof _ g
  · have taken : g.Aloof { g with inFlight := true } :=
      ⟨rfl, rfl, rfl, [], (List.append_nil _).symm⟩
    have told := taken.trans (setStatus_aloof (.string operation.started) _)
    dsimp only
    split
    · exact told.trans ⟨rfl, rfl, rfl, [], (List.append_nil _).symm⟩
    · exact told.trans ⟨rfl, rfl, rfl, [], (List.append_nil _).symm⟩

theorem report_aloof (message : String) (g : Gist) : g.Aloof (g.report message) := by
  unfold report
  split
  · exact ⟨rfl, rfl, rfl, [message], rfl⟩
  · exact ⟨rfl, rfl, rfl, [], (List.append_nil _).symm⟩

theorem Acts.aloof {name : String} {data : Value} (acts : g.Acts name data g') : g.Aloof g' := by
  unfold Acts at acts
  split at acts
  · split at acts
    · exact acts ▸ run_aloof _ g
    · split at acts
      · obtain ⟨texts, rfl⟩ | rfl := acts
        · exact setTexts_aloof texts g
        · exact complain_aloof _ g
      · split at acts
        · exact acts ▸ confirm_aloof _ g
        · exact acts ▸ .refl g
  · exact acts ▸ complain_aloof _ g

theorem Again.aloof {step : Gist → Gist → Prop} (aloof : ∀ g g', step g g' → g.Aloof g') {n : Nat}
    (again : Again step n g g') : g.Aloof g' := by
  induction n generalizing g with
  | zero => exact again ▸ .refl g
  | succ n ih =>
      obtain ⟨g₁, here, later⟩ := again
      exact (aloof g g₁ here).trans (ih later)

theorem Reports.aloof {view : Nat} {name : String} {data : Value}
    (reports : g.Reports view name data g') : g.Aloof g' := by
  unfold Reports at reports
  split at reports
  · exact Again.aloof (fun _ _ => Acts.aloof) reports
  · exact reports ▸ .refl g

theorem Closes.aloof (closes : g.Closes g') : g.Aloof g' := by
  obtain ⟨texts, serving, rfl⟩ := closes
  exact (setTexts_aloof texts g).trans ⟨rfl, rfl, rfl, [], (List.append_nil _).symm⟩

theorem halt_aloof (g : Gist) : g.Aloof g.halt := ⟨rfl, rfl, rfl, [], (List.append_nil _).symm⟩

theorem leave_aloof (g : Gist) : g.Aloof g.leave := ⟨rfl, rfl, rfl, [], (List.append_nil _).symm⟩

/-! ## Writes of the busy flag -/

theorem foldl_tell_news (followers : List (ConnectionId × Nat)) (busy : Bool) (g : Gist) :
    (followers.foldl (tell busy) g).frame = g.frame ∧
    ∀ id view word, .tell id view word ∈ (followers.foldl (tell busy) g).waiting →
      .tell id view word ∈ g.waiting ∨ (id, view) ∈ followers := by
  induction followers generalizing g with
  | nil => exact ⟨rfl, fun _ _ _ => .inl⟩
  | cons f rest ih =>
      obtain ⟨frame, news⟩ := ih (tell busy g f)
      have first : (tell busy g f).frame = g.frame ∧
          ∀ id view word, .tell id view word ∈ (tell busy g f).waiting →
            .tell id view word ∈ g.waiting ∨ (id, view) = f := by
        unfold tell
        split
        · exact ⟨rfl, fun _ _ _ => .inl⟩
        · refine ⟨rfl, fun id view word member => ?_⟩
          rcases List.mem_append.mp member with old | new
          · exact .inl old
          · cases List.mem_singleton.mp new
            exact .inr rfl
      refine ⟨frame.trans first.1, fun id view word member => ?_⟩
      rcases news id view word member with old | new
      · rcases first.2 id view word old with old | same
        · exact .inl old
        · exact .inr (same ▸ List.mem_cons_self)
      · exact .inr (List.mem_cons_of_mem _ new)

theorem Unspoken.wordless (unspoken : g.Unspoken) : g.Wordless :=
  fun id view busy member => absurd member (unspoken id view busy)

theorem Wordless.words (wordless : g.Wordless) {id : ConnectionId}
    (connected : g.frame.connected id = true) : g.words id = [] := by
  refine List.filterMap_eq_nil_iff.mpr fun errand member => ?_
  cases errand with
  | complete message => rfl
  | tell other view busy =>
      refine if_neg ?_
      rintro rfl
      exact absurd ((wordless other view busy member).symm.trans connected) (by decide)

/-- The only view that follows is told. -/
theorem Follows.told {f : ConnectionId × Nat} {value : Value} {busy : Bool}
    (follows : g.Follows) (only : g.frame.followers = [f])
    (same : value.asBool?.getD false = busy)
    (quiet : g.inline = true → g.flag = busy ∨ g.Wordless) :
    (tell busy { g with busy := value } f).Follows := by
  have linked := follows.linked f (only ▸ List.mem_singleton_self f)
  unfold tell
  split
  · next inline =>
      refine ⟨follows.single, follows.linked, follows.known, follows.unrouted, fun f' member => ?_⟩
      obtain rfl := List.mem_singleton.mp (only ▸ member : f' ∈ [f])
      show (g.words f'.1).getLastD (!Function.update g.enabled f'.2 (!busy) f'.2) =
        value.asBool?.getD false
      rw [Function.update_self, Bool.not_not, same]
      -- The last word that waits, if there is one, is the flag as it was.
      rcases quiet inline with still | wordless
      · have agrees := follows.agrees f' (only ▸ member)
        rw [still] at agrees
        cases words : g.words f'.1 with
        | nil => rfl
        | cons word later =>
            rw [words] at agrees
            exact agrees
      · rw [wordless.words linked, List.getLastD_nil]
  · next later =>
      have routed : g.frame.routed = true := by
        cases routed : g.frame.routed with
        | true => rfl
        | false => exact absurd (by simp [inline, routed]) later
      refine ⟨follows.single, follows.linked, fun id view word member connected => ?_,
        fun unrouted => ?_, fun f' member => ?_⟩
      · rcases List.mem_append.mp member with old | new
        · exact follows.known id view word old connected
        · cases List.mem_singleton.mp new
          rw [show g.frame.followers = [f] from only]
          exact List.mem_singleton_self f
      · rw [show g.frame.routed = false from unrouted] at routed
        cases routed
      · obtain rfl := List.mem_singleton.mp (only ▸ member : f' ∈ [f])
        simp [words, List.filterMap_append, Errand.word?, flag, same]

/-- A write of the busy flag is right if the flag stays, or if no word is on its way that is heard
    after the view was told at once. -/
theorem setBusy_faithful (value : Value)
    (quiet : g.Follows → g.inline = true → g.flag = value.asBool?.getD false ∨ g.Wordless) :
    g.Faithful (g.setBusy value) := by
  unfold setBusy
  split
  · exact .refl g
  · obtain ⟨frame, news⟩ := foldl_tell_news g.frame.followers (value.asBool?.getD false)
      { g with busy := value }
    refine ⟨frame, news, fun follows => ?_⟩
    match followers : g.frame.followers with
    | [] =>
        have same : announceBusy (value.asBool?.getD false) { g with busy := value } =
            { g with busy := value } := by
          simp only [announceBusy, followers, List.foldl_nil]
        rw [same]
        refine ⟨follows.single, follows.linked, follows.known, follows.unrouted, ?_⟩
        intro f member
        rw [show Frame.followers _ = [] from followers] at member
        cases member
    | [f] =>
        have once : announceBusy (value.asBool?.getD false) { g with busy := value } =
            tell (value.asBool?.getD false) { g with busy := value } f := by
          simp only [announceBusy, followers, List.foldl_cons, List.foldl_nil]
        rw [once]
        exact follows.told followers rfl (quiet follows)
    | _ :: _ :: _ =>
        have single := follows.single
        rw [followers] at single
        simp at single

/-! ## The worker -/

theorem does_faithful (behind : g.thread = .background) (operation : Operation) (piece : Piece) :
    g.Faithful (g.does operation piece) := by
  have quiet : ∀ flag, g.Follows → g.inline = true → g.flag = flag ∨ g.Wordless := by
    intro flag follows inline
    refine .inr (follows.unrouted ?_).wordless
    simpa [Gist.inline, behind] using inline
  cases piece with
  | begins | ends => exact setBusy_faithful _ (quiet _)
  | tells => exact (setStatus_aloof _ g).faithful
  | stamps => exact .refl g
  | reports => exact (report_aloof _ g).faithful

theorem setBusy_thread (value : Value) (g : Gist) : (g.setBusy value).thread = g.thread := by
  unfold setBusy announceBusy
  split
  · rfl
  · have told : ∀ (followers : List (ConnectionId × Nat)) (busy : Bool) (g : Gist),
        (followers.foldl (tell busy) g).thread = g.thread := by
      intro followers busy
      induction followers with
      | nil => exact fun g => rfl
      | cons f rest ih =>
          intro g
          rw [List.foldl_cons, ih]
          unfold tell
          split <;> rfl
    exact told _ _ _

theorem setStatus_thread (value : Value) (g : Gist) : (g.setStatus value).thread = g.thread := by
  unfold setStatus
  split <;> rfl

theorem report_thread (message : String) (g : Gist) : (g.report message).thread = g.thread := by
  unfold report
  split <;> rfl

theorem does_thread (operation : Operation) (piece : Piece) (g : Gist) :
    (g.does operation piece).thread = g.thread := by
  cases piece with
  | begins | ends => exact setBusy_thread _ g
  | tells => exact setStatus_thread _ g
  | stamps => rfl
  | reports => exact report_thread _ g

theorem behind_faithful (operation : Operation) (pieces : List Piece) (g : Gist) :
    g.Faithful (g.behind operation pieces) := by
  have done : ∀ g : Gist, g.thread = .background →
      g.Faithful (pieces.foldl (does operation) g) := by
    induction pieces with
    | nil => exact fun g _ => .refl g
    | cons piece rest ih =>
        intro g behind
        exact (does_faithful behind operation piece).trans
          (ih _ ((does_thread operation piece g).trans behind))
  exact ((faithful_thread .background g).trans (done _ rfl)).trans (faithful_thread g.thread _)

theorem workOn_faithful (pieces : List Piece) (g : Gist) : g.Faithful (g.workOn pieces) := by
  unfold workOn
  split
  · exact .refl g
  · exact behind_faithful _ pieces g

theorem workOff_faithful (g : Gist) : g.Faithful g.workOff := by
  unfold workOff
  generalize g.worker.queue = operations
  induction operations generalizing g with
  | nil => exact .refl g
  | cons operation rest ih =>
      have worked : g.Faithful (g.work operation) :=
        (behind_faithful operation Piece.all g).trans (leave_aloof _).faithful
      exact worked.trans (ih _)

/-! ## Draining -/

/-- What a view was told last is what it follows. -/
theorem foldl_perform_enabled {f : ConnectionId × Nat} (errands : List Errand)
    (only : g.frame.followers = [f]) (linked : g.frame.connected f.1 = true)
    (known : ∀ id view busy, .tell id view busy ∈ errands → g.frame.connected id = true →
      (id, view) ∈ g.frame.followers) :
    (!(errands.foldl perform g).enabled f.2) =
      (errands.filterMap (Errand.word? f.1)).getLastD (!g.enabled f.2) := by
  induction errands generalizing g with
  | nil => rfl
  | cons errand rest ih =>
      have later : ∀ id view busy, .tell id view busy ∈ rest → g.frame.connected id = true →
          (id, view) ∈ g.frame.followers :=
        fun id view busy member => known id view busy (List.mem_cons_of_mem _ member)
      cases errand with
      | complete message =>
          rw [List.foldl_cons, List.filterMap_cons_none rfl]
          exact ih (g := g.complete message) only linked later
      | tell id view busy =>
          cases connected : g.frame.connected id with
          | true =>
              have here := known id view busy List.mem_cons_self connected
              obtain rfl := List.mem_singleton.mp (only ▸ here : (id, view) ∈ [f])
              have told : g.perform (.tell id view busy) = g.follow view busy := if_pos connected
              have heard : Errand.word? id (.tell id view busy) = some busy := if_pos rfl
              have now : (!(g.follow view busy).enabled view) = busy := by simp [follow]
              have rest := ih (g := g.follow view busy) only linked later
              rw [now] at rest
              rw [List.foldl_cons, told, List.filterMap_cons_some heard, List.getLastD_cons]
              exact rest
          | false =>
              have other : id ≠ f.1 := by
                rintro rfl
                rw [connected] at linked
                cases linked
              have told : g.perform (.tell id view busy) = g := if_neg (by simp [connected])
              have unheard : Errand.word? f.1 (.tell id view busy) = none := if_neg other
              rw [List.foldl_cons, told, List.filterMap_cons_none unheard]
              exact ih only linked later

theorem foldl_perform_keeps (errands : List Errand) (g : Gist) :
    (errands.foldl perform g).frame = g.frame ∧ (errands.foldl perform g).busy = g.busy ∧
      (errands.foldl perform g).waiting = g.waiting := by
  induction errands generalizing g with
  | nil => exact ⟨rfl, rfl, rfl⟩
  | cons errand rest ih =>
      obtain ⟨frame, busy, waiting⟩ := ih (g.perform errand)
      have first : (g.perform errand).frame = g.frame ∧ (g.perform errand).busy = g.busy ∧
          (g.perform errand).waiting = g.waiting := by
        cases errand with
        | complete message => exact ⟨rfl, rfl, rfl⟩
        | tell id view busy => unfold perform; dsimp only; split <;> exact ⟨rfl, rfl, rfl⟩
      exact ⟨frame.trans first.1, busy.trans first.2.1, waiting.trans first.2.2⟩

theorem drain_faithful (g : Gist) : g.Faithful g.drain := by
  obtain ⟨frame, busy, waiting⟩ := foldl_perform_keeps g.waiting { g with waiting := [] }
  have unspoken : g.drain.Unspoken := by
    intro id view word member
    rw [drain, waiting] at member
    cases member
  refine ⟨frame, fun id view word member => absurd member (unspoken id view word), ?_⟩
  intro follows
  have same : g.drain.frame = g.frame := frame
  refine ⟨?_, ?_, fun id view word member => absurd member (unspoken id view word),
    fun _ => unspoken, fun f member => ?_⟩
  · rw [same]
    exact follows.single
  · rw [same]
    exact follows.linked
  · rw [same] at member
    have only : g.frame.followers = [f] := by
      have single := follows.single
      obtain ⟨f', eq⟩ := List.length_eq_one_iff.mp
        (le_antisymm single (List.length_pos_of_mem member))
      rw [eq] at member ⊢
      rw [List.mem_singleton.mp member]
    have told := foldl_perform_enabled (g := { g with waiting := [] }) g.waiting only
      (follows.linked f member) follows.known
    have flag : g.drain.flag = g.flag := congrArg (·.asBool?.getD false) busy
    rw [unspoken.wordless.words (same ▸ follows.linked f member), flag, ← follows.agrees f member]
    exact told

/-! ## Turns -/

/-- No turn keeps a view from following the busy flag. -/
theorem Turns.faithful {left left' : Option (List Piece)} {t : Turn}
    (turns : g.Turns left left' g' t) : g.Faithful g' := by
  cases t with
  | act name data => exact turns.2.aloof.faithful
  | report view name data => exact turns.2.aloof.faithful
  | close view => exact turns.2.aloof.faithful
  | stop =>
      obtain ⟨-, texts, rfl⟩ := turns
      exact (setTexts_aloof texts g).faithful
  | halt =>
      obtain ⟨-, texts, rfl⟩ := turns
      exact ((setTexts_aloof texts g).trans (halt_aloof _)).faithful
  | drain => exact turns.2 ▸ drain_faithful g
  | work =>
      match left with
      | none => exact turns.2 ▸ .refl g
      | some [] => exact turns.2 ▸ (leave_aloof g).faithful
      | some (piece :: rest) => exact turns.2 ▸ workOn_faithful [piece] g
  | wait =>
      cases left with
      | none => exact turns.2 ▸ workOff_faithful g
      | some rest =>
          rw [turns.2]
          exact ((workOn_faithful rest g).trans (leave_aloof _).faithful).trans (workOff_faithful _)

end Gist

end Mvc.App
