import ChartTree.Demo

/-! The program: it runs the demonstration and prints it. -/

def main : IO Unit := do
  for output in ChartTree.Demo.outputs do
    IO.println output.text
