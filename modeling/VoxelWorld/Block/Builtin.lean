import VoxelWorld.Block.Registry

/-!
# Block.Builtin — the blocks of a world without a list of its own

The ids are written into saved chunks, so they never change.
-/

namespace VoxelWorld.Registry

/-- The twelve definitions of the built-in list. -/
def builtinDefs : List BlockDef :=
  [ { name := "air", id := some 0, translucent := some true, invisible := some true },
    { name := "stone", id := some 1 },
    { name := "dirt", id := some 2 },
    { name := "grass", id := some 3 },
    { name := "sand", id := some 4 },
    { name := "log", id := some 5 },
    { name := "leaves", id := some 6, translucent := some true },
    { name := "tall_grass", id := some 7, translucent := some true, form := some .billboard },
    { name := "glass", id := some 8, translucent := some true },
    { name := "coal_ore", id := some 9 },
    { name := "torch", id := some 10, translucent := some true, form := some .billboard,
      luminance := some 15 },
    { name := "red_flower", id := some 11, translucent := some true, form := some .billboard } ]

/-- The registry of the built-in list. -/
def builtin : Registry := (ofDefs builtinDefs).toOption.getD empty

end VoxelWorld.Registry
