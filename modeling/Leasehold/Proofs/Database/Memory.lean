import Leasehold.Proofs.Database.Ready
import Leasehold.Proofs.Store.History
import Leasehold.Scenario.World

/-!
# Stores in memory and in files

A store that is kept in memory and one that is kept in files start empty and get the same
calls at the same times. Then every call is answered alike, and after every call what is
loaded from the files are the records in memory, expiries included. For a database only
persists what a call has changed, and what it persists is read back as it was.
-/

namespace Leasehold

open Database FileSystem Leasehold.Path

/-! ## Runs of calls -/

/-- Makes store calls one after the other, each at its time, and collects the replies. -/
def World.serveAll (world : World) : List (Instant × StoreCall) → List MadeCall × World
  | [] => ([], world)
  | (time, call) :: calls =>
    let (reply, world) := World.serveStore { world with clock := time } call
    let (made, world) := world.serveAll calls
    (⟨call, reply, time⟩ :: made, world)

/-! ## Starting empty -/

/-- That a directory is there and empty, and its path is short enough for the files of a
database. -/
structure Database.Vacant (tree : Tree) (pid : Pid) (directory : Path) : Prop where
  isThere : tree.isDirectory directory = true
  isEmpty : ∀ name, tree.node? (name :: directory.placeFrom tree.workingDirectory) = none
  isShort : ∀ path, path = keyspacePath directory ∨
    temporary? pid.toNat (keyspacePath directory) = some path →
    Tree.walkable path = .ok path.pieces

namespace Database.Vacant

variable {tree : Tree} {pid : Pid} {directory : Path}

theorem reaches (vacant : Vacant tree pid directory) :
    tree.Reaches (keyspacePath directory)
      ("db.json" :: directory.placeFrom tree.workingDirectory) := by
  have isThere := vacant.isThere
  rw [Tree.isDirectory] at isThere
  split at isThere
  next place located =>
    rcases Tree.locate_eq_ok_iff.mp located with ⟨reaches, found⟩
    have nonempty := (Tree.walkable_eq_ok_iff.mp reaches.walkable).2.1
    rw [← reaches.eq_placeFrom]
    exact Tree.reaches_of_parent isFileName_keyspace found (.inr ⟨nonempty, reaches.walk⟩)
      (vacant.isShort _ (.inl rfl))
  next => contradiction

/-- In an empty directory a database can work. -/
theorem ready (vacant : Vacant tree pid directory) :
    Ready pid directory (directory.placeFrom tree.workingDirectory) tree := by
  refine ⟨vacant.reaches, fun name _ => ?_, fun temporary found => vacant.isShort _ (.inr found)⟩
  rw [vacant.isEmpty name]
  nofun

/-- It holds no record. -/
theorem stored? (vacant : Vacant tree pid directory) :
    Database.stored? tree directory = some .empty := by
  have content : tree.content? ((keyspacePath directory).placeFrom tree.workingDirectory) =
      none := by
    rw [← vacant.reaches.eq_placeFrom, Tree.content?, vacant.isEmpty]
  rw [Database.stored?, content]
  rfl

end Database.Vacant

/-! ## In step -/

/-- That a store in memory holds a keyspace, and one in files, which goes on working, holds
the same records. -/
structure Alike (directory : Path) (folder : Place) (keyspace : Keyspace)
    (memory database : World) : Prop where
  inMemory : memory.backing = .memory keyspace
  inFiles : database.backing = .database directory
  stored : stored? database.tree directory = some ⟨keyspace.entries, false⟩
  ready : Ready database.pid directory folder database.tree

namespace Alike

variable {directory : Path} {folder : Place} {keyspace : Keyspace} {memory database : World}

/-- A call is answered alike, and leaves the stores alike. -/
theorem serveStore (alike : Alike directory folder keyspace memory database) (time : Instant)
    (call : StoreCall) :
    ∃ memory' database',
      World.serveStore { memory with clock := time } call =
        (.ok (keyspace.serve time call).1, memory') ∧
      World.serveStore { database with clock := time } call =
        (.ok (keyspace.serve time call).1, database') ∧
      Alike directory folder (keyspace.serve time call).2 memory' database' := by
  have same : (⟨keyspace.entries, false⟩ : Keyspace).entries = keyspace.entries := rfl
  rcases Keyspace.serve_congr same time call with ⟨answered, left⟩
  rcases alike.ready.run_serve alike.stored time call with ⟨tree, ran, stored, keeps⟩
  rw [left] at stored
  rw [answered] at ran
  refine ⟨{ memory with clock := time, backing := .memory (keyspace.serve time call).2 },
    { database with clock := time, tree := tree }, ?_, ?_,
    ⟨rfl, alike.inFiles, stored, alike.ready.of_keeps keeps⟩⟩
  · rw [World.serveStore]
    simp only [alike.inMemory]
  · rw [World.serveStore]
    simp only [alike.inFiles, ran]

/-- So do calls one after the other. -/
theorem serveAll (alike : Alike directory folder keyspace memory database)
    (calls : List (Instant × StoreCall)) :
    (database.serveAll calls).1 = (memory.serveAll calls).1 ∧
      (∀ made ∈ (memory.serveAll calls).1, made.reply.isOk = true) ∧
      ∃ keyspace', Alike directory folder keyspace' (memory.serveAll calls).2
        (database.serveAll calls).2 := by
  induction calls generalizing keyspace memory database with
  | nil => exact ⟨rfl, List.forall_mem_nil _, keyspace, alike⟩
  | cons timed calls ih =>
      rcases timed with ⟨time, call⟩
      rcases alike.serveStore time call with ⟨memory', database', served, served', alike'⟩
      rcases ih alike' with ⟨same, answered, left⟩
      simp only [World.serveAll, served, served']
      exact ⟨by rw [same], List.forall_mem_cons.mpr ⟨rfl, answered⟩, left⟩

end Alike

/-! ## In agreement -/

/-- That the same calls, made to a store in memory and to one in files, were all answered, and
alike, and that loading from the files gives the records that are in memory. -/
structure Database.Agrees (directory : Path) (kept written : List MadeCall × World) : Prop where
  alike : written.1 = kept.1
  answered : ∀ made ∈ kept.1, made.reply.isOk = true
  loads : ∃ keyspace loaded, kept.2.backing = .memory keyspace ∧
    written.2.tree.run (load directory) = (.ok loaded, written.2.tree) ∧
    loaded.entries = keyspace.entries

/-- A store in memory and one in files that both start empty agree after any calls. So they
do after every call of a list, for the calls up to it are a list themselves. -/
theorem database_agrees_with_memory {world : World} {directory : Path}
    (vacant : Vacant world.tree world.pid directory) (calls : List (Instant × StoreCall)) :
    Agrees directory (World.serveAll { world with backing := .memory .empty } calls)
      (World.serveAll { world with backing := .database directory } calls) := by
  have alike : Alike directory (directory.placeFrom world.tree.workingDirectory) .empty
      { world with backing := .memory .empty } { world with backing := .database directory } :=
    ⟨rfl, rfl, vacant.stored?, vacant.ready⟩
  rcases alike.serveAll calls with ⟨same, answered, keyspace, left⟩
  refine ⟨same, answered, keyspace, ⟨keyspace.entries, false⟩, left.inMemory, ?_, rfl⟩
  exact run_load left.ready.reaches (left.ready.files "db.json" (keyspace_mem_fileNames _))
    left.stored

/-- A world with an empty directory. -/
def emptyDirectory : World :=
  ⟨1, ⟨[], [(["db"], .directory)]⟩, default, .memory .empty, .none, [], [], [], false⟩

/-- Calls that make a record without expiry and one that lives as long as can be. -/
def firstCalls : List (Instant × StoreCall) :=
  [(default, .merge "PORT|Ethernet0" (TextMap.empty.insert "mtu" "\n\"é\"")),
    (default, .create "LOCK|configDbLock" .empty ⟨Instant.max.position.toNat⟩),
    (Instant.max, .dump fun _ => true)]

/-- In an empty directory records are kept as they are in memory. -/
theorem database_agrees_with_memory_of_firstCalls :
    Agrees "db" (World.serveAll emptyDirectory firstCalls)
      (World.serveAll { emptyDirectory with backing := .database "db" } firstCalls) := by
  have vacant : Vacant emptyDirectory.tree emptyDirectory.pid "db" := by
    refine ⟨by decide +kernel, fun name => ?_, fun path => ?_⟩
    · have place : Path.placeFrom emptyDirectory.tree.workingDirectory "db" = ["db"] := by
        decide +kernel
      rw [place]
      simp [emptyDirectory, Tree.node?]
    · have temporary : temporary? emptyDirectory.pid.toNat (keyspacePath "db") =
          some "db/.db.json.1.tmp" := by decide +kernel
      rw [temporary]
      rintro (rfl | same)
      · decide +kernel
      · cases same
        decide +kernel
  exact database_agrees_with_memory vacant firstCalls

end Leasehold
