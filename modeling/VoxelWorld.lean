import VoxelWorld.Block.Basic
import VoxelWorld.Block.Builtin
import VoxelWorld.Block.List
import VoxelWorld.Block.Registry
import VoxelWorld.Checked
import VoxelWorld.Chunk.Basic
import VoxelWorld.Chunk.Codec
import VoxelWorld.Chunk.Lifecycle
import VoxelWorld.Chunk.Neighbors
import VoxelWorld.Config
import VoxelWorld.Coord
import VoxelWorld.Decimal
import VoxelWorld.Dims
import VoxelWorld.Generation.Forest
import VoxelWorld.Generation.Hash
import VoxelWorld.Generation.Noise
import VoxelWorld.Generation.Ore
import VoxelWorld.Generation.Passes
import VoxelWorld.Generation.Standard
import VoxelWorld.Generation.Terrain
import VoxelWorld.Geometry
import VoxelWorld.Gpu
import VoxelWorld.Headless.Args
import VoxelWorld.Headless.Run
import VoxelWorld.Light.Column
import VoxelWorld.Light.Flood
import VoxelWorld.Light.Kind
import VoxelWorld.Light.Volume
import VoxelWorld.Main
import VoxelWorld.Mesh.Build
import VoxelWorld.Mesh.ChunkMesh
import VoxelWorld.Mesh.Face
import VoxelWorld.Mesh.Geometry
import VoxelWorld.Mesh.Job
import VoxelWorld.Mesh.Mesher
import VoxelWorld.Mesh.Snapshot
import VoxelWorld.Mesh.View
import VoxelWorld.Proofs.Chunk
import VoxelWorld.Proofs.Codec
import VoxelWorld.Proofs.Coord
import VoxelWorld.Proofs.Encoding
import VoxelWorld.Proofs.Ensures
import VoxelWorld.Proofs.Generation.Access
import VoxelWorld.Proofs.Generation.Ground
import VoxelWorld.Proofs.Generation.Trees
import VoxelWorld.Proofs.Generation.Veins
import VoxelWorld.Proofs.Lifecycle
import VoxelWorld.Proofs.Light.Column
import VoxelWorld.Proofs.Light.Daylight
import VoxelWorld.Proofs.Light.Decay
import VoxelWorld.Proofs.Light.Glow
import VoxelWorld.Proofs.Light.Guarded
import VoxelWorld.Proofs.Light.Levels
import VoxelWorld.Proofs.Light.Once
import VoxelWorld.Proofs.Light.Reach
import VoxelWorld.Proofs.Light.Refresh
import VoxelWorld.Proofs.Light.Removal
import VoxelWorld.Proofs.Light.Retract
import VoxelWorld.Proofs.Light.Safe
import VoxelWorld.Proofs.Light.Seed
import VoxelWorld.Proofs.Light.Sky
import VoxelWorld.Proofs.Light.Spread
import VoxelWorld.Proofs.Light.Still
import VoxelWorld.Proofs.Light.Sunlight
import VoxelWorld.Proofs.Light.Volume
import VoxelWorld.Proofs.Light.Worklist
import VoxelWorld.Proofs.Mesh.Buffers
import VoxelWorld.Proofs.Mesh.Build
import VoxelWorld.Proofs.Mesh.Drawn
import VoxelWorld.Proofs.Mesh.Faces
import VoxelWorld.Proofs.Mesh.Handover
import VoxelWorld.Proofs.Mesh.Newest
import VoxelWorld.Proofs.Mesh.Quads
import VoxelWorld.Proofs.Mesh.Slots
import VoxelWorld.Proofs.Mesh.Snapshot
import VoxelWorld.Proofs.Mesh.Streams
import VoxelWorld.Proofs.Naming
import VoxelWorld.Proofs.Numbering
import VoxelWorld.Proofs.Registry
import VoxelWorld.Proofs.Save.Apart
import VoxelWorld.Proofs.Save.Disk
import VoxelWorld.Proofs.Save.Interrupted
import VoxelWorld.Proofs.Save.Path
import VoxelWorld.Proofs.Save.Stream
import VoxelWorld.Proofs.Single
import VoxelWorld.Proofs.Storage
import VoxelWorld.Proofs.Storage.Written
import VoxelWorld.Proofs.Store
import VoxelWorld.Proofs.Store.Directory
import VoxelWorld.Proofs.Store.Ids
import VoxelWorld.Proofs.Tiling
import VoxelWorld.Proofs.World.Archive
import VoxelWorld.Proofs.World.BlockLight
import VoxelWorld.Proofs.World.BlockMap
import VoxelWorld.Proofs.World.Bounds
import VoxelWorld.Proofs.World.Calls
import VoxelWorld.Proofs.World.Changes
import VoxelWorld.Proofs.World.Columns
import VoxelWorld.Proofs.World.Edit
import VoxelWorld.Proofs.World.Field
import VoxelWorld.Proofs.World.Fixpoint
import VoxelWorld.Proofs.World.Fresh
import VoxelWorld.Proofs.World.Generate
import VoxelWorld.Proofs.World.Inland
import VoxelWorld.Proofs.World.MeshJobs
import VoxelWorld.Proofs.World.Meshes
import VoxelWorld.Proofs.World.Meshing
import VoxelWorld.Proofs.World.Placing
import VoxelWorld.Proofs.World.Regrowth
import VoxelWorld.Proofs.World.Release
import VoxelWorld.Proofs.World.Relight
import VoxelWorld.Proofs.World.Relighting
import VoxelWorld.Proofs.World.Reload
import VoxelWorld.Proofs.World.Residents
import VoxelWorld.Proofs.World.Seams
import VoxelWorld.Proofs.World.SkyLight
import VoxelWorld.Proofs.World.Sources
import VoxelWorld.Proofs.World.Steps
import VoxelWorld.Proofs.World.Tracked
import VoxelWorld.Proofs.World.Undisturbed
import VoxelWorld.Proofs.World.Unload
import VoxelWorld.Proofs.World.Updates
import VoxelWorld.Proofs.World.Volume
import VoxelWorld.Save.Base36
import VoxelWorld.Save.ChunkFiles
import VoxelWorld.Save.Disk
import VoxelWorld.Save.Path
import VoxelWorld.Save.Stream
import VoxelWorld.Storage.Blocks
import VoxelWorld.Storage.Nibbles
import VoxelWorld.Store
import VoxelWorld.Store.Seats
import VoxelWorld.Text.Combining
import VoxelWorld.Text.Fingerprint
import VoxelWorld.Text.Hex
import VoxelWorld.Text.Quoted
import VoxelWorld.Text.Unprinted
import VoxelWorld.Toml.Document
import VoxelWorld.Toml.Fields
import VoxelWorld.Toml.Node
import VoxelWorld.Toml.Number
import VoxelWorld.Toml.Text
import VoxelWorld.World.Basic
import VoxelWorld.World.Cells
import VoxelWorld.World.Edit
import VoxelWorld.World.Meshing
import VoxelWorld.World.Streaming
import VoxelWorld.World.Unload
