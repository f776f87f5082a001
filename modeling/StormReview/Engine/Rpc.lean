import Mathlib.Logic.Function.Basic
import Mathlib.Logic.Relation

/-! Clients of one server, over a network that delays, reorders, repeats and loses what is in
flight. A client calls when its user acts and goes on while the call is out; the server also moves
without being called. What one side knows of the server has to survive every move of it. -/
namespace Rpc

variable {ι κ σ α μ ρ ω : Type}

/-- A client's state is `κ`, an act of its user `α`, a call `μ`, a reply `ρ`; the server has `σ`
and serves each call in a world `ω` of its moment. -/
structure Program (κ σ α μ ρ ω : Type) where
  /-- Absent where the user cannot act so. -/
  act : α → κ → Option (κ × Option μ)
  serve : ω → μ → σ → ρ × σ
  /-- How a client goes on after its call: a call that failed has no reply. -/
  read : μ → Option ρ → κ → κ

/-- A call that is out, with the client it is from and the state that client called in. -/
structure Call (ι κ μ : Type) where
  client : ι
  sentIn : κ
  request : μ

structure System (ι κ σ μ ρ : Type) where
  server : σ
  clients : ι → κ
  calls : List (Call ι κ μ)
  replies : List (Call ι κ μ × Option ρ)

/-- Nothing is in flight. -/
def System.initial (server : σ) (client : κ) : System ι κ σ μ ρ where
  server
  clients := fun _ => client
  calls := []
  replies := []

section step
variable (p : Program κ σ α μ ρ ω)

/-- `ready` says in which worlds the server may serve, `moves` what it does uncalled. -/
inductive Step [DecidableEq ι] (ready : ω → σ → Prop) (moves : σ → σ → Prop) :
    System ι κ σ μ ρ → System ι κ σ μ ρ → Prop
  | act {s : System ι κ σ μ ρ} {i : ι} {a : α} {next : κ} {sent : Option μ} :
      p.act a (s.clients i) = some (next, sent) →
      Step ready moves s
        { s with
          clients := Function.update s.clients i next
          calls := s.calls ++ sent.toList.map fun m => ⟨i, s.clients i, m⟩ }
  | serve {s : System ι κ σ μ ρ} {before after : List (Call ι κ μ)} {call : Call ι κ μ} {w : ω} :
      s.calls = before ++ call :: after → ready w s.server →
      Step ready moves s
        { s with
          server := (p.serve w call.request s.server).2
          calls := before ++ after
          replies := s.replies ++ [(call, some (p.serve w call.request s.server).1)] }
  | loseCall {s : System ι κ σ μ ρ} {before after : List (Call ι κ μ)} {call : Call ι κ μ} :
      s.calls = before ++ call :: after →
      Step ready moves s { s with calls := before ++ after, replies := s.replies ++ [(call, none)] }
  | repeatCall {s : System ι κ σ μ ρ} {before after : List (Call ι κ μ)} {call : Call ι κ μ} :
      s.calls = before ++ call :: after →
      Step ready moves s { s with calls := s.calls ++ [call] }
  | loseReply {s : System ι κ σ μ ρ} {before after : List (Call ι κ μ × Option ρ)}
      {call : Call ι κ μ} {r : Option ρ} :
      s.replies = before ++ (call, r) :: after →
      Step ready moves s { s with replies := before ++ (call, none) :: after }
  | read {s : System ι κ σ μ ρ} {before after : List (Call ι κ μ × Option ρ)}
      {call : Call ι κ μ} {r : Option ρ} :
      s.replies = before ++ (call, r) :: after →
      Step ready moves s
        { s with
          clients :=
            Function.update s.clients call.client (p.read call.request r (s.clients call.client))
          replies := before ++ after }
  | move {s : System ι κ σ μ ρ} {next : σ} :
      moves s.server next → Step ready moves s { s with server := next }

/-- What a client knows of the server and what a reply tells of it: each is kept by every move
of the server, and a client only learns what it is told. -/
structure Lasting (ready : ω → σ → Prop) (moves : σ → σ → Prop) (Knows : σ → κ → Prop)
    (Told : σ → μ → ρ → Prop) : Prop where
  served {w : ω} {m : μ} {s : σ} {c : κ} :
    ready w s → Knows s c → Knows (p.serve w m s).2 c
  moved {s t : σ} {c : κ} : moves s t → Knows s c → Knows t c
  toldServed {w : ω} {m n : μ} {s : σ} {r : ρ} :
    ready w s → Told s n r → Told (p.serve w m s).2 n r
  toldMoved {s t : σ} {n : μ} {r : ρ} : moves s t → Told s n r → Told t n r
  acts {a : α} {s : σ} {c next : κ} {sent : Option μ} :
    Knows s c → p.act a c = some (next, sent) → Knows s next
  answers {w : ω} {m : μ} {s : σ} {c next : κ} {a : α} :
    ready w s → Knows s c → p.act a c = some (next, some m) →
      Told (p.serve w m s).2 m (p.serve w m s).1
  reads {s : σ} {m : μ} {r : ρ} {c : κ} : Knows s c → Told s m r → Knows s (p.read m (some r) c)
  fails {s : σ} {m : μ} {c : κ} : Knows s c → Knows s (p.read m none c)

/-- A call that its client made of its own, by an act of its user. -/
def Call.Made (call : Call ι κ μ) : Prop :=
  ∃ a next, p.act a call.sentIn = some (next, some call.request)

/-- Every client knows, also in the state in which a call was made that is still out; every
reply on its way tells what holds. -/
structure Sound (Knows : σ → κ → Prop) (Told : σ → μ → ρ → Prop) (s : System ι κ σ μ ρ) :
    Prop where
  clients : ∀ i, Knows s.server (s.clients i)
  calls : ∀ call ∈ s.calls, Knows s.server call.sentIn ∧ call.Made p
  replies : ∀ e ∈ s.replies, ∀ r, e.2 = some r → Told s.server e.1.request r

section rule
variable {p} {ready : ω → σ → Prop} {moves : σ → σ → Prop} {Knows : σ → κ → Prop}
  {Told : σ → μ → ρ → Prop} {s t : System ι κ σ μ ρ}

theorem sound_initial {server : σ} {client : κ} (h : Knows server client) :
    Sound (ι := ι) p Knows Told (.initial server client) :=
  ⟨fun _ => h, by simp [System.initial], by simp [System.initial]⟩

/-- Where the server moves less, what lasted still does. -/
theorem Lasting.mono (hl : Lasting p ready moves Knows Told) {moves' : σ → σ → Prop}
    (h : ∀ s t, moves' s t → moves s t) : Lasting p ready moves' Knows Told :=
  { hl with
    moved := fun hm => hl.moved (h _ _ hm)
    toldMoved := fun hm => hl.toldMoved (h _ _ hm) }

variable [DecidableEq ι]

/-- A client's next state is one it knows in. -/
theorem Sound.update (hs : Sound p Knows Told s) {i : ι} {next : κ} (h : Knows s.server next) (j : ι) :
    Knows s.server (Function.update s.clients i next j) := by
  by_cases hj : j = i
  · subst hj
    rwa [Function.update_self]
  · rw [Function.update_of_ne hj]
    exact hs.clients j

/-- Each step keeps the system sound. -/
theorem Sound.step (hl : Lasting p ready moves Knows Told) (hs : Sound p Knows Told s)
    (h : Step p ready moves s t) : Sound p Knows Told t := by
  cases h with
  | @act i a next sent hact =>
    refine ⟨hs.update (hl.acts (hs.clients i) hact), fun call hcall => ?_, hs.replies⟩
    rcases List.mem_append.mp hcall with hold | hnew
    · exact hs.calls call hold
    · obtain ⟨m, hm, rfl⟩ := List.mem_map.mp hnew
      rw [Option.mem_toList] at hm
      subst hm
      exact ⟨hs.clients i, a, next, hact⟩
  | @serve before after call w hcalls hready =>
    have hcall : call ∈ s.calls := by simp [hcalls]
    refine ⟨fun i => hl.served hready (hs.clients i), fun other hother => ?_, fun e he r hr => ?_⟩
    · have hmem : other ∈ s.calls := by
        rw [hcalls, List.mem_append, List.mem_cons]
        exact (List.mem_append.mp hother).imp id .inr
      obtain ⟨hknows, hmade⟩ := hs.calls other hmem
      exact ⟨hl.served hready hknows, hmade⟩
    · rcases List.mem_append.mp he with hold | hnew
      · exact hl.toldServed hready (hs.replies e hold r hr)
      · obtain rfl := List.mem_singleton.mp hnew
        obtain rfl := Option.some.inj hr
        obtain ⟨hknows, a, next, hact⟩ := hs.calls call hcall
        exact hl.answers hready hknows hact
  | @loseCall before after call hcalls =>
    refine ⟨hs.clients, fun other hother => hs.calls other ?_, fun e he r hr => ?_⟩
    · rw [hcalls, List.mem_append, List.mem_cons]
      exact (List.mem_append.mp hother).imp id .inr
    · rcases List.mem_append.mp he with hold | hnew
      · exact hs.replies e hold r hr
      · obtain rfl := List.mem_singleton.mp hnew
        cases hr
  | @repeatCall before after call hcalls =>
    refine ⟨hs.clients, fun other hother => ?_, hs.replies⟩
    rcases List.mem_append.mp hother with hold | hnew
    · exact hs.calls other hold
    · obtain rfl := List.mem_singleton.mp hnew
      exact hs.calls other (by simp [hcalls])
  | @loseReply before after call lost hreplies =>
    refine ⟨hs.clients, hs.calls, fun e he r hr => ?_⟩
    rw [List.mem_append, List.mem_cons] at he
    rcases he with he | rfl | he
    · exact hs.replies e (by simp [hreplies, he]) r hr
    · cases hr
    · exact hs.replies e (by simp [hreplies, he]) r hr
  | @read before after call r hreplies =>
    refine ⟨hs.update ?_, hs.calls, fun e he => hs.replies e ?_⟩
    · cases r with
      | none => exact hl.fails (hs.clients call.client)
      | some r =>
        exact hl.reads (hs.clients call.client) (hs.replies (call, some r) (by simp [hreplies]) r rfl)
    · rw [hreplies, List.mem_append, List.mem_cons]
      exact (List.mem_append.mp he).imp id .inr
  | move hmoves =>
    refine ⟨fun i => hl.moved hmoves (hs.clients i), fun call hcall => ?_, fun e he r hr =>
      hl.toldMoved hmoves (hs.replies e he r hr)⟩
    exact ⟨hl.moved hmoves (hs.calls call hcall).1, (hs.calls call hcall).2⟩

/-- However the steps are interleaved, the system stays sound. -/
theorem Sound.steps (hl : Lasting p ready moves Knows Told) (hs : Sound p Knows Told s)
    (h : Relation.ReflTransGen (Step p ready moves) s t) : Sound p Knows Told t := by
  induction h with
  | refl => exact hs
  | tail _ hstep ih => exact ih.step hl hstep

/-- A property of the server that it keeps when it serves what clients call and when it moves
uncalled holds after any run. -/
theorem server_invariant {P : σ → Prop} (hl : Lasting p ready moves Knows Told)
    (hs : Sound p Knows Told s)
    (hserve : ∀ w (call : Call ι κ μ) s, ready w s → Knows s call.sentIn → call.Made p → P s →
      P (p.serve w call.request s).2)
    (hmove : ∀ s t, moves s t → P s → P t) (hP : P s.server)
    (h : Relation.ReflTransGen (Step p ready moves) s t) : P t.server := by
  induction h with
  | refl => exact hP
  | tail hsteps hstep ih =>
    have hsound := hs.steps hl hsteps
    cases hstep with
    | @serve before after call w hcalls hready =>
      obtain ⟨hknows, hmade⟩ := hsound.calls call (by simp [hcalls])
      exact hserve w call _ hready hknows hmade ih
    | move hmoves => exact hmove _ _ hmoves ih
    | act _ => exact ih
    | loseCall _ => exact ih
    | repeatCall _ => exact ih
    | loseReply _ => exact ih
    | read _ => exact ih

end rule

/-! What one client does by itself. -/

/-- The acts of a user one after the other, and all they call. -/
def Program.acts : List α → κ → Option (κ × List μ)
  | [], c => some (c, [])
  | a :: as, c =>
    (p.act a c).bind fun (c, sent) =>
      (Program.acts as c).map fun (c, later) => (c, sent.toList ++ later)

section alone
variable {p} {ready : ω → σ → Prop} {moves : σ → σ → Prop} [DecidableEq ι]

theorem steps_acts {as : List α} {s : System ι κ σ μ ρ} {i : ι} {next : κ} {sent : List μ}
    (h : p.acts as (s.clients i) = some (next, sent)) :
    ∃ calls : List (Call ι κ μ), calls.map (·.request) = sent ∧ (∀ call ∈ calls, call.client = i) ∧
      Relation.ReflTransGen (Step p ready moves) s
        { s with clients := Function.update s.clients i next, calls := s.calls ++ calls } := by
  induction as generalizing s sent with
  | nil =>
    cases h
    refine ⟨[], rfl, nofun, ?_⟩
    rw [Function.update_eq_self, List.append_nil]
  | cons a as ih =>
    obtain ⟨⟨c, called⟩, hact, hrest⟩ := Option.bind_eq_some_iff.mp h
    obtain ⟨⟨c', later⟩, hacts, hlast⟩ := Option.map_eq_some_iff.mp hrest
    cases hlast
    have hstep : Step p ready moves s _ := .act hact
    obtain ⟨calls, hcalls, hclient, hsteps⟩ := ih (s := { s with
      clients := Function.update s.clients i c
      calls := s.calls ++ called.toList.map fun m => ⟨i, s.clients i, m⟩ }) (by simpa using hacts)
    refine ⟨called.toList.map (fun m => ⟨i, s.clients i, m⟩) ++ calls, ?_, ?_, ?_⟩
    · rw [List.map_append, List.map_map, hcalls]
      simp [Function.comp_def]
    · intro call hcall
      rcases List.mem_append.mp hcall with hnew | hlater
      · obtain ⟨m, -, rfl⟩ := List.mem_map.mp hnew
        rfl
      · exact hclient call hlater
    · simp only [Function.update_idem, List.append_assoc] at hsteps
      exact .head hstep hsteps

theorem Step.serve_last {s : System ι κ σ μ ρ} {calls : List (Call ι κ μ)} {call : Call ι κ μ}
    {w : ω} (h : s.calls = calls ++ [call]) (hready : ready w s.server) :
    Step p ready moves s
      { s with
        server := (p.serve w call.request s.server).2
        calls
        replies := s.replies ++ [(call, some (p.serve w call.request s.server).1)] } := by
  have hstep : Step p ready moves s _ := .serve h hready
  rwa [List.append_nil] at hstep

/-- A call that is made, served and read before anything else happens. -/
theorem steps_exchange {s : System ι κ σ μ ρ} {i : ι} {a : α} {next : κ} {m : μ} {w : ω}
    (hact : p.act a (s.clients i) = some (next, some m)) (hready : ready w s.server) :
    Relation.ReflTransGen (Step p ready moves) s
      { s with
        server := (p.serve w m s.server).2
        clients := Function.update s.clients i
          (p.read m (some (p.serve w m s.server).1) next) } := by
  let call : Call ι κ μ := ⟨i, s.clients i, m⟩
  let reply := (p.serve w m s.server).1
  let called : System ι κ σ μ ρ :=
    { s with clients := Function.update s.clients i next, calls := s.calls ++ [call] }
  let served : System ι κ σ μ ρ :=
    { s with
      server := (p.serve w m s.server).2
      clients := Function.update s.clients i next
      replies := s.replies ++ [(call, some reply)] }
  have hcalled : Step p ready moves s called := .act hact
  have hserved : Step p ready moves called served := Step.serve_last (s := called) rfl hready
  have hread : Step p ready moves served _ := .read rfl
  simp only [served, call, Function.update_self, Function.update_idem, List.append_nil] at hread
  exact ((Relation.ReflTransGen.single hcalled).tail hserved).tail hread

end alone
end step
end Rpc
